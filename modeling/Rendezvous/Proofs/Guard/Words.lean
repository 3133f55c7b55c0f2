import Mathlib.Data.Bool.AllAny
import Rendezvous.Proofs.Guard.Derivation

/-!
# Words in a text

A token is a piece of the text whose characters are all of its kind, and never empty
(`uniform_of_mem_tokens`); a word in particular holds neither whitespace nor operators (`IsWord`).
Texts are put together from words, operators and spaces.  `Spells` says which tokens a text adds in
front of any text that does not continue its last word, and has one lemma for each way of putting
texts together, so that the tokens of a printed expression can be read off its parts.
-/

namespace Rendezvous.Guard

/-! ## Tokens of one kind -/

/-- A text that is one word: it is not empty and has neither whitespace nor operators. -/
def IsWord (text : List Char) : Prop :=
  text ≠ [] ∧ ∀ c ∈ text, TokenKind.ofChar c = .word

instance (text : List Char) : Decidable (IsWord text) :=
  inferInstanceAs (Decidable (_ ∧ _))

-- Deciding `IsWord` itself goes through all of `Char` as soon as `Char` is known to be finite.
/-- A word, by a computation over its characters. -/
theorem isWord_of_all {text : List Char} (hne : text ≠ [])
    (h : text.all (fun c => TokenKind.ofChar c = .word) = true) : IsWord text :=
  ⟨hne, List.all_iff_forall_prop.1 h⟩

/-- A token is not empty, and its characters are of its kind. -/
def Token.IsUniform (t : Token) : Prop :=
  t.text ≠ [] ∧ ∀ c ∈ t.text, TokenKind.ofChar c = t.kind

theorem uniform_of_mem_consChar {c : Char} {ts : List Token} (h : ∀ t ∈ ts, t.IsUniform) :
    ∀ t ∈ consChar c ts, t.IsUniform := by
  have hsingle : Token.IsUniform ⟨.ofChar c, [c]⟩ := ⟨List.cons_ne_nil c [], by simp⟩
  unfold consChar
  split
  · next kind text rest =>
    obtain ⟨hfirst, hrest⟩ := List.forall_mem_cons.1 h
    split
    · next hjoin =>
      -- the character joins a run of its own kind
      refine List.forall_mem_cons.2 ⟨⟨List.cons_ne_nil c text, ?_⟩, hrest⟩
      exact List.forall_mem_cons.2 ⟨hjoin.1.symm, hfirst.2⟩
    · exact List.forall_mem_cons.2 ⟨hsingle, h⟩
  · exact List.forall_mem_cons.2 ⟨hsingle, h⟩

theorem uniform_of_mem_tokens {text : List Char} : ∀ t ∈ tokens text, t.IsUniform := by
  induction text with
  | nil => exact fun t ht => absurd ht List.not_mem_nil
  | cons c rest ih => exact uniform_of_mem_consChar ih

/-- **No token of a text is an error.** -/
theorem kind_ne_error_of_mem_tokens {text : List Char} {t : Token} (h : t ∈ tokens text) :
    t.kind ≠ .error := by
  obtain ⟨hne, hchars⟩ := uniform_of_mem_tokens t h
  obtain ⟨c, hc⟩ := List.exists_mem_of_ne_nil _ hne
  rw [← hchars c hc]
  exact TokenKind.ofChar_ne_error c

/-- The words among the tokens of a text are words. -/
theorem isWord_of_mem_wordsOf {text : List Char} {name : String}
    (h : name ∈ wordsOf (tokens text)) : IsWord name.toList := by
  obtain ⟨t, ht, rfl⟩ := List.mem_map.1 h
  obtain ⟨hmem, hkind⟩ := List.mem_filter.1 ht
  obtain ⟨hne, hchars⟩ := uniform_of_mem_tokens t hmem
  rw [of_decide_eq_true hkind] at hchars
  rw [String.toList_ofList]
  exact ⟨hne, hchars⟩

/-- The guards of an expression derived from a text are words. -/
theorem isWord_of_derives {names : List String} {d : Nat} {text : List Char} {p : Phrase} {e : Expr}
    (h : Derives names d p (significant (tokens text)) e) : ∀ n ∈ e.guards, IsWord n.toList := by
  intro n hn
  rw [h.guards_eq, wordsOf_significant] at hn
  exact isWord_of_mem_wordsOf hn

/-! ## Where a word ends -/

/-- A text in front of which a word is complete: it does not begin with a character of a word. -/
def EndsWord (rest : List Char) : Prop :=
  ∀ c ∈ rest.head?, TokenKind.ofChar c ≠ .word

theorem endsWord_nil : EndsWord [] :=
  fun _ h => nomatch h

theorem endsWord_cons {c : Char} (h : TokenKind.ofChar c ≠ .word) (rest : List Char) :
    EndsWord (c :: rest) := by
  intro c' hc'
  obtain rfl := Option.some.inj hc'
  exact h

/-- The first token is of the kind of the first character. -/
theorem kind_of_head?_tokens {text : List Char} {t : Token} (h : (tokens text).head? = some t) :
    ∃ c, text.head? = some c ∧ TokenKind.ofChar c = t.kind := by
  cases text with
  | nil => cases h
  | cons c rest =>
    refine ⟨c, rfl, ?_⟩
    rw [tokens] at h
    unfold consChar at h
    split at h
    · split at h
      · next hjoin =>
        obtain rfl := Option.some.inj h
        exact hjoin.1.symm
      · obtain rfl := Option.some.inj h
        rfl
    · obtain rfl := Option.some.inj h
      rfl

/-- A character that joins no token is a token of its own. -/
theorem consChar_of_apart {c : Char} {ts : List Token}
    (h : ∀ t ∈ ts.head?, t.kind = .ofChar c → t.kind.isRun = false) :
    consChar c ts = ⟨.ofChar c, [c]⟩ :: ts := by
  cases ts with
  | nil => rfl
  | cons t ts =>
    rw [consChar, if_neg]
    rintro ⟨hkind, hrun⟩
    rw [h t rfl hkind] at hrun
    cases hrun

/-- A character of a word that comes before anything else is a token of its own. -/
theorem consChar_tokens_of_endsWord {c : Char} (hc : TokenKind.ofChar c = .word)
    {rest : List Char} (hrest : EndsWord rest) :
    consChar c (tokens rest) = ⟨.word, [c]⟩ :: tokens rest := by
  have happart : consChar c (tokens rest) = ⟨.ofChar c, [c]⟩ :: tokens rest := by
    refine consChar_of_apart fun t ht hkind => ?_
    obtain ⟨c', hhead, hkind'⟩ := kind_of_head?_tokens ht
    exact absurd (hkind'.trans (hkind.trans hc)) (hrest c' hhead)
  rwa [hc] at happart

theorem tokens_word_append {word rest : List Char} (hword : IsWord word) (hrest : EndsWord rest) :
    tokens (word ++ rest) = ⟨.word, word⟩ :: tokens rest := by
  obtain ⟨hne, hchars⟩ := hword
  induction word with
  | nil => exact absurd rfl hne
  | cons c word ih =>
    obtain ⟨hc, hchars⟩ := List.forall_mem_cons.1 hchars
    rw [List.cons_append, tokens]
    cases word with
    | nil => exact consChar_tokens_of_endsWord hc hrest
    | cons c' word =>
      rw [ih (List.cons_ne_nil c' word) hchars, consChar, if_pos ⟨hc.symm, rfl⟩]

/-! ## Operators and whitespace -/

/-- An operator joins no token. -/
theorem consChar_operator {c : Char} (h : (TokenKind.ofChar c).isRun = false) (ts : List Token) :
    consChar c ts = ⟨.ofChar c, [c]⟩ :: ts :=
  consChar_of_apart fun _ _ hkind => hkind ▸ h

/-- The grammar does not see a character of whitespace. -/
theorem significant_consChar_whitespace {c : Char} (h : TokenKind.ofChar c = .whitespace)
    (ts : List Token) : significant (consChar c ts) = significant ts := by
  cases ts with
  | nil => simp [consChar, significant, h]
  | cons t ts =>
    rw [consChar]
    split
    · next hjoin => simp [significant, hjoin.1, h]
    · simp [significant, h]

/-! ## Texts from parts -/

/-- The text stands for the tokens `ts`, whatever follows that does not continue its last word. -/
def Spells (text : List Char) (ts : List Token) : Prop :=
  ∀ rest, EndsWord rest →
    significant (tokens (text ++ rest)) = ts ++ significant (tokens rest)

theorem spells_word {word : List Char} (h : IsWord word) : Spells word [⟨.word, word⟩] := by
  intro rest hrest
  rw [tokens_word_append h hrest]
  simp [significant]

/-- An operator is a token wherever it stands. -/
theorem significant_operator_cons {c : Char} (h : (TokenKind.ofChar c).isRun = false)
    (rest : List Char) :
    significant (tokens (c :: rest)) = ⟨.ofChar c, [c]⟩ :: significant (tokens rest) := by
  have hne : TokenKind.ofChar c ≠ .whitespace := by
    intro hw
    rw [hw] at h
    cases h
  rw [tokens, consChar_operator h]
  simp [significant, hne]

section
variable {text text' : List Char} {ts us : List Token} {c : Char}

theorem Spells.significant_tokens (h : Spells text ts) : significant (tokens text) = ts := by
  have hend := h [] endsWord_nil
  rw [List.append_nil] at hend
  rw [hend]
  exact List.append_nil ts

/-- An operator before a text. -/
theorem Spells.operator_cons (hc : (TokenKind.ofChar c).isRun = false) (h : Spells text ts) :
    Spells (c :: text) (⟨.ofChar c, [c]⟩ :: ts) := by
  intro rest hrest
  rw [List.cons_append, significant_operator_cons hc, h rest hrest, List.cons_append]

/-- An operator after a text. -/
theorem Spells.append_operator (h : Spells text ts) (hc : (TokenKind.ofChar c).isRun = false) :
    Spells (text ++ [c]) (ts ++ [⟨.ofChar c, [c]⟩]) := by
  intro rest hrest
  have hends : EndsWord (c :: rest) := endsWord_cons (fun hw => by rw [hw] at hc; cases hc) rest
  rw [List.append_assoc, List.singleton_append, h _ hends, significant_operator_cons hc,
    List.append_assoc, List.singleton_append]

/-- An operator between two texts, with a space on either side. -/
theorem Spells.spaced (h : Spells text ts) (hc : (TokenKind.ofChar c).isRun = false)
    (h' : Spells text' us) :
    Spells (text ++ ' ' :: c :: ' ' :: text') (ts ++ ⟨.ofChar c, [c]⟩ :: us) := by
  intro rest hrest
  have hspace : TokenKind.ofChar ' ' = .whitespace := rfl
  have hends : EndsWord (' ' :: c :: ' ' :: (text' ++ rest)) := endsWord_cons (by decide) _
  rw [List.append_assoc, List.cons_append, List.cons_append, List.cons_append, h _ hends, tokens,
    significant_consChar_whitespace hspace, significant_operator_cons hc, tokens,
    significant_consChar_whitespace hspace, h' rest hrest, List.append_assoc, List.cons_append]

end

end Rendezvous.Guard

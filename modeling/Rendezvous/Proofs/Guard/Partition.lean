import Mathlib.Data.List.Chain
import Rendezvous.Proofs.Guard.Locations

/-!
# The one partition of a text

What a piece of a text may be is said here without the function that cuts texts: a run of whitespace,
a word, or an operator (`IsLexeme`).  A partition of a text is a list of such pieces that put together
are the text, each with the number of bytes before it as a text size, in which neither two words nor two
runs of whitespace are neighbours (`IsPartition`).  Cutting a text gives a partition, and there is no other
(`isPartition_iff`): a list of lexemes in which runs stand apart is what its text is cut into
(`IsSpaced.tokens_flatMap`).
-/

namespace Rendezvous.Guard

/-! ## Lexemes -/

/-- The characters of whitespace. -/
def spaceChars : List Char :=
  [' ', '\t', '\r', '\n', '\x0c']

/-- The operators, each with its kind. -/
def operatorKinds : List (Char × TokenKind) :=
  [('&', .amp), ('|', .pipe), ('!', .bang), ('(', .leftParen), (')', .rightParen)]

/-- `IsLexeme kind text`: the text may stand as one piece of this kind.  No text is a piece of the kind
of errors, or of the kind of an inner node. -/
inductive IsLexeme : Kind → List Char → Prop
  | whitespace {text : List Char} : text ≠ [] → (∀ c ∈ text, c ∈ spaceChars) →
      IsLexeme (.token .whitespace) text
  | word {text : List Char} : text ≠ [] →
      (∀ c ∈ text, c ∉ spaceChars ∧ c ∉ operatorKinds.map Prod.fst) → IsLexeme (.token .word) text
  | operator {c : Char} {kind : TokenKind} : (c, kind) ∈ operatorKinds →
      IsLexeme (.token kind) [c]

/-- A character of whitespace is one of these, and no other is. -/
theorem ofChar_eq_whitespace_iff {c : Char} : TokenKind.ofChar c = .whitespace ↔ c ∈ spaceChars := by
  unfold TokenKind.ofChar spaceChars
  split <;> simp_all [isWordChar]

theorem ofChar_eq_word_iff {c : Char} :
    TokenKind.ofChar c = .word ↔ c ∉ spaceChars ∧ c ∉ operatorKinds.map Prod.fst := by
  unfold TokenKind.ofChar spaceChars operatorKinds
  split <;> simp_all [isWordChar]

theorem ofChar_eq_operator_iff {c : Char} {kind : TokenKind} (h : kind.isRun = false) :
    TokenKind.ofChar c = kind ↔ (c, kind) ∈ operatorKinds := by
  unfold TokenKind.ofChar operatorKinds
  split <;> cases kind <;> simp_all [TokenKind.isRun, isWordChar]

/-! ## Lists of lexemes -/

/-- Neighbours of these kinds do not continue each other: they are neither two words nor two runs of
whitespace. -/
def Apart (kind kind' : Kind) : Prop :=
  kind = kind' → kind ≠ .token .word ∧ kind ≠ .token .whitespace

theorem apart_token_iff {kind kind' : TokenKind} :
    Apart (.token kind) (.token kind') ↔ (kind = kind' → kind.isRun = false) := by
  cases kind <;> cases kind' <;> simp [Apart, TokenKind.isRun]

/-- The tokens are lexemes and stand apart. -/
structure IsSpaced (ts : List Token) : Prop where
  isLexeme : ∀ t ∈ ts, IsLexeme (.token t.kind) t.text
  apart : (ts.map fun t => Kind.token t.kind).IsChain Apart

/-- A lexeme has characters of its kind, and one of them only if it is no run. -/
theorem isLexeme_token_iff {t : Token} :
    IsLexeme (.token t.kind) t.text ↔
      t.IsUniform ∧ (t.kind.isRun = false → t.text.length = 1) := by
  obtain ⟨kind, text⟩ := t
  constructor
  · intro h
    cases h with
    | whitespace hne hchars =>
      exact ⟨⟨hne, fun c hc => ofChar_eq_whitespace_iff.2 (hchars c hc)⟩, nofun⟩
    | word hne hchars => exact ⟨⟨hne, fun c hc => ofChar_eq_word_iff.2 (hchars c hc)⟩, nofun⟩
    | @operator c _ hmem =>
      have hrun : kind.isRun = false := by
        simp only [operatorKinds, List.mem_cons, Prod.mk.injEq, List.not_mem_nil, or_false] at hmem
        rcases hmem with ⟨-, rfl⟩ | ⟨-, rfl⟩ | ⟨-, rfl⟩ | ⟨-, rfl⟩ | ⟨-, rfl⟩ <;> rfl
      refine ⟨⟨List.cons_ne_nil c [], ?_⟩, fun _ => rfl⟩
      intro d hd
      obtain rfl := List.mem_singleton.1 hd
      exact (ofChar_eq_operator_iff hrun).2 hmem
  · rintro ⟨⟨hne, hchars⟩, hsingle⟩
    by_cases hrun : kind.isRun = false
    · obtain ⟨c, rfl⟩ := List.length_eq_one_iff.1 (hsingle hrun)
      exact .operator ((ofChar_eq_operator_iff hrun).1 (hchars c (List.mem_singleton_self c)))
    · obtain rfl | rfl : kind = .whitespace ∨ kind = .word := by
        cases kind <;> simp_all [TokenKind.isRun]
      · exact .whitespace hne fun c hc => ofChar_eq_whitespace_iff.1 (hchars c hc)
      · exact .word hne fun c hc => ofChar_eq_word_iff.1 (hchars c hc)

/-- A character in front joins a run of its kind or is a lexeme of its own. -/
theorem isSpaced_consChar {c : Char} {ts : List Token} (h : IsSpaced ts) :
    IsSpaced (consChar c ts) := by
  have hsingle : IsLexeme (.token (.ofChar c)) [c] := by
    apply (isLexeme_token_iff (t := ⟨.ofChar c, [c]⟩)).2
    exact ⟨⟨List.cons_ne_nil c [], by simp⟩, fun _ => rfl⟩
  cases ts with
  | nil => exact ⟨List.forall_mem_singleton.2 hsingle, .singleton _⟩
  | cons t ts =>
    obtain ⟨hfirst, hrest⟩ := List.forall_mem_cons.1 h.isLexeme
    rw [consChar]
    split
    · next hjoin =>
      refine ⟨List.forall_mem_cons.2 ⟨?_, hrest⟩, h.apart⟩
      obtain ⟨⟨-, hchars⟩, -⟩ := isLexeme_token_iff.1 hfirst
      apply (isLexeme_token_iff (t := ⟨t.kind, c :: t.text⟩)).2
      refine ⟨⟨List.cons_ne_nil c t.text, List.forall_mem_cons.2 ⟨hjoin.1.symm, hchars⟩⟩, ?_⟩
      intro hrun
      exact absurd (hrun.symm.trans hjoin.2) Bool.false_ne_true
    · next hapart =>
      refine ⟨List.forall_mem_cons.2 ⟨hsingle, h.isLexeme⟩, List.isChain_cons_cons.2 ⟨?_, h.apart⟩⟩
      apply apart_token_iff.2
      intro hkind
      exact Bool.eq_false_iff.2 fun hrun => hapart ⟨hkind.symm, hkind ▸ hrun⟩

/-- What a text is cut into are lexemes that stand apart. -/
theorem isSpaced_tokens (text : List Char) : IsSpaced (tokens text) := by
  induction text with
  | nil => exact ⟨List.forall_mem_nil _, .nil⟩
  | cons c text ih => exact isSpaced_consChar ih

/-- A lexeme is cut into nothing smaller. -/
theorem tokens_of_isLexeme {t : Token} (h : IsLexeme (.token t.kind) t.text) :
    tokens t.text = [t] := by
  obtain ⟨kind, text⟩ := t
  obtain ⟨⟨hne, hchars⟩, hsingle⟩ := isLexeme_token_iff.1 h
  clear h
  induction text with
  | nil => exact absurd rfl hne
  | cons c text ih =>
    obtain ⟨hc, hchars⟩ := List.forall_mem_cons.1 hchars
    obtain rfl : TokenKind.ofChar c = kind := hc
    cases text with
    | nil => rfl
    | cons d text =>
      have hrun : (TokenKind.ofChar c).isRun = true := by
        cases hrun : (TokenKind.ofChar c).isRun with
        | true => rfl
        | false => simpa using hsingle hrun
      have hrest : tokens (d :: text) = [⟨.ofChar c, d :: text⟩] := by
        refine ih (fun hfalse => ?_) (List.cons_ne_nil d text) hchars
        exact absurd (hfalse.symm.trans hrun) Bool.false_ne_true
      rw [tokens, hrest, consChar, if_pos ⟨rfl, hrun⟩]

/-- Where two lexemes stand apart no run goes on from the one into what follows. -/
theorem IsSpaced.severed {t : Token} {ts : List Token} (h : IsSpaced (t :: ts))
    (hrest : tokens (ts.flatMap Token.text) = ts) : Severed t.text (ts.flatMap Token.text) := by
  obtain ⟨hfirst, -⟩ := List.forall_mem_cons.1 h.isLexeme
  obtain ⟨⟨-, hchars⟩, -⟩ := isLexeme_token_iff.1 hfirst
  intro c hc d hd hkind
  have hcKind : TokenKind.ofChar c = t.kind := hchars c (List.mem_of_getLast? hc)
  cases ts with
  | nil => cases hd
  | cons u us =>
    obtain ⟨d', hd', hdKind⟩ := kind_of_head?_tokens (congrArg List.head? hrest)
    obtain rfl := Option.some.inj (hd.symm.trans hd')
    have hapart : Apart (.token t.kind) (.token u.kind) := (List.isChain_cons_cons.1 h.apart).1
    rw [hcKind]
    exact apart_token_iff.1 hapart (by rw [← hcKind, hkind, hdKind])

/-- **Lexemes that stand apart are what their text is cut into.** -/
theorem IsSpaced.tokens_flatMap {ts : List Token} (h : IsSpaced ts) :
    tokens (ts.flatMap Token.text) = ts := by
  induction ts with
  | nil => rfl
  | cons t ts ih =>
    obtain ⟨hfirst, hlexemes⟩ := List.forall_mem_cons.1 h.isLexeme
    have hrest : tokens (ts.flatMap Token.text) = ts := ih ⟨hlexemes, h.apart.tail⟩
    rw [List.flatMap_cons, tokens_append (h.severed hrest), hrest, tokens_of_isLexeme hfirst]
    rfl

/-! ## Pieces with their places -/

/-- A piece of a text, of any kind, and the byte at which it is said to start. -/
structure Piece where
  offset : UInt32
  kind : Kind
  text : List Char
  deriving DecidableEq, Repr

/-- Tokens as pieces, the first of which starts at byte `offset`. -/
def piecesFrom (offset : Nat) (ts : List Token) : List Piece :=
  (located offset ts).map fun p => ⟨p.1, .token p.2.kind, p.2.text⟩

/-- The pieces that a text is cut into. -/
def pieces (text : List Char) : List Piece :=
  piecesFrom 0 (tokens text)

/-- Every piece starts where the bytes of those before it end, the first at byte `offset`. -/
def StartsAt (offset : Nat) (ps : List Piece) : Prop :=
  ∀ before p after, ps = before ++ p :: after →
    Text.IsSizeOf p.offset (offset + (String.ofList (before.flatMap Piece.text)).utf8ByteSize)

/-- The pieces are lexemes that stand apart and cover the text, each in its place. -/
structure IsPartition (text : List Char) (ps : List Piece) : Prop where
  text_eq : ps.flatMap Piece.text = text
  startsAt : StartsAt 0 ps
  isLexeme : ∀ p ∈ ps, IsLexeme p.kind p.text
  apart : (ps.map Piece.kind).IsChain Apart

/-- The bytes of a text are those of its characters. -/
theorem utf8ByteSize_ofList (text : List Char) :
    (String.ofList text).utf8ByteSize = Text.byteSize text := by
  induction text with
  | nil => rfl
  | cons c text ih =>
    rw [Text.byteSize, ← ih, String.ofList_cons]
    simp

section
variable {offset : Nat} {p : Piece} {ps : List Piece} {ts : List Token}

theorem startsAt_cons :
    StartsAt offset (p :: ps) ↔
      Text.IsSizeOf p.offset offset ∧ StartsAt (offset + Text.byteSize p.text) ps := by
  simp only [StartsAt, utf8ByteSize_ofList]
  constructor
  · intro h
    refine ⟨h [] p ps rfl, fun before q after hps => ?_⟩
    have hcons : p :: ps = (p :: before) ++ q :: after := congrArg (p :: ·) hps
    have hq := h _ _ _ hcons
    rwa [List.flatMap_cons, Text.byteSize_append, ← Nat.add_assoc] at hq
  · rintro ⟨hp, hps⟩ before q after hcons
    cases before with
    | nil =>
      obtain ⟨rfl, -⟩ := List.cons.inj hcons
      exact hp
    | cons r before =>
      obtain ⟨rfl, hafter⟩ := List.cons.inj hcons
      rw [List.flatMap_cons, Text.byteSize_append, ← Nat.add_assoc]
      exact hps before q after hafter

theorem piecesFrom_cons (offset : Nat) (t : Token) (ts : List Token) :
    piecesFrom offset (t :: ts) =
      ⟨Text.sizeOrZero offset, .token t.kind, t.text⟩ ::
        piecesFrom (offset + Text.byteSize t.text) ts := rfl

theorem startsAt_piecesFrom : StartsAt offset (piecesFrom offset ts) := by
  induction ts generalizing offset with
  | nil => intro before p after h; simp [piecesFrom, located] at h
  | cons t ts ih => exact startsAt_cons.2 ⟨Text.isSizeOf_sizeOrZero offset, ih⟩

theorem flatMap_piecesFrom : (piecesFrom offset ts).flatMap Piece.text = ts.flatMap Token.text := by
  induction ts generalizing offset with
  | nil => rfl
  | cons t ts ih => rw [piecesFrom_cons, List.flatMap_cons, List.flatMap_cons, ih]

theorem map_kind_piecesFrom :
    (piecesFrom offset ts).map Piece.kind = ts.map fun t => Kind.token t.kind := by
  induction ts generalizing offset with
  | nil => rfl
  | cons t ts ih => rw [piecesFrom_cons, List.map_cons, List.map_cons, ih]

theorem forall_mem_piecesFrom {P : Kind → List Char → Prop} :
    (∀ p ∈ piecesFrom offset ts, P p.kind p.text) ↔ ∀ t ∈ ts, P (.token t.kind) t.text := by
  induction ts generalizing offset with
  | nil => simp [piecesFrom, located]
  | cons t ts ih => rw [piecesFrom_cons, List.forall_mem_cons, List.forall_mem_cons, ih]

/-- Pieces in their places are tokens, if they are lexemes. -/
theorem StartsAt.exists_piecesFrom (h : StartsAt offset ps)
    (hlexeme : ∀ p ∈ ps, IsLexeme p.kind p.text) : ∃ ts, ps = piecesFrom offset ts := by
  induction ps generalizing offset with
  | nil => exact ⟨[], rfl⟩
  | cons p ps ih =>
    obtain ⟨hp, hps⟩ := startsAt_cons.1 h
    obtain ⟨hfirst, hrest⟩ := List.forall_mem_cons.1 hlexeme
    obtain ⟨kind, hkind⟩ : ∃ kind, p.kind = .token kind := by
      cases hk : p.kind with
      | token kind => exact ⟨kind, rfl⟩
      | node kind =>
        rw [hk] at hfirst
        cases hfirst
    obtain ⟨ts, rfl⟩ := ih hps hrest
    refine ⟨⟨kind, p.text⟩ :: ts, ?_⟩
    obtain ⟨start, pkind, text⟩ := p
    obtain rfl := Text.isSizeOf_iff.1 hp
    obtain rfl : pkind = .token kind := hkind
    rfl

end

/-- **A text has one partition, which is what it is cut into.**  Cutting loses nothing, gives every piece
the number of bytes before it, or zero where this is no text size, takes runs of whitespace and words as
far as they go and finds a kind for every character; and whatever does all this gives the same
pieces. -/
theorem isPartition_iff {text : List Char} {ps : List Piece} :
    IsPartition text ps ↔ ps = pieces text := by
  constructor
  · rintro ⟨rfl, hstarts, hlexeme, hapart⟩
    obtain ⟨ts, rfl⟩ := hstarts.exists_piecesFrom hlexeme
    rw [map_kind_piecesFrom] at hapart
    have hspaced : IsSpaced ts := ⟨forall_mem_piecesFrom.1 hlexeme, hapart⟩
    rw [flatMap_piecesFrom, pieces, hspaced.tokens_flatMap]
  · rintro rfl
    have hspaced : IsSpaced (tokens text) := isSpaced_tokens text
    refine ⟨?_, startsAt_piecesFrom, forall_mem_piecesFrom.2 hspaced.isLexeme, ?_⟩
    · rw [pieces, flatMap_piecesFrom, flatMap_tokens]
    · rw [pieces, map_kind_piecesFrom]
      exact hspaced.apart

/-- The letter `é` takes two bytes, and the control character `\x1f` belongs to a word. -/
example : pieces "né\x1f \t&&x".toList =
    [⟨0, .token .word, ['n', 'é', '\x1f']⟩, ⟨4, .token .whitespace, [' ', '\t']⟩,
      ⟨6, .token .amp, ['&']⟩, ⟨7, .token .amp, ['&']⟩, ⟨8, .token .word, ['x']⟩] := by
  decide

/-- A word behind `n` spaces. -/
def indented (n : Nat) : List Char := List.replicate n ' ' ++ ['a']

theorem pieces_indented {n : Nat} (hn : 0 < n) : pieces (indented n) =
    [⟨0, .token .whitespace, List.replicate n ' '⟩, ⟨Text.sizeOrZero n, .token .word, ['a']⟩] := by
  have hsevered : Severed (List.replicate n ' ') ['a'] := by
    intro c hc d hd hkind
    obtain rfl := List.eq_of_mem_replicate (List.mem_of_getLast? hc)
    obtain rfl := Option.some.inj hd
    exact absurd hkind (by decide)
  have hsize : 0 + Text.byteSize (List.replicate n ' ') = n := by
    rw [Nat.zero_add, Text.byteSize_replicate]
    exact Nat.mul_one n
  rw [pieces, indented, tokens_append hsevered, tokens_replicate_space hn, List.singleton_append,
    piecesFrom_cons, hsize]
  rfl

/-- Behind 4294967296 spaces a word has a place that is no text size, and is said to start at zero. -/
theorem not_startsAt_beyond_sizes :
    ∃ p q, pieces (indented 4294967296) = [p, q] ∧
      q.offset.toNat ≠ (String.ofList p.text).utf8ByteSize := by
  have hoffset : Text.sizeOrZero 4294967296 = 0 :=
    (Text.isSizeOf_sizeOrZero _).eq_zero (Nat.le_refl _)
  refine ⟨_, _, pieces_indented (by decide), ?_⟩
  rw [hoffset, utf8ByteSize_ofList, Text.byteSize_replicate]
  decide

end Rendezvous.Guard

import Mathlib.Data.List.Basic
import Rendezvous.Text.Literal

/-!
# Reading string literals

Every text is written as one string literal that is read as the text (`literal_carries_text`).  The
rules of literals are stated twice.  `readLiteral?` reads a literal from its opening quote to its
closing one, and `IsBody` says of every place between the quotes what may stand there, where a
backslash counts only if it is not itself taken along by the backslash before it (`isEscaped`).
-/

namespace Rendezvous.Text

/-! ## The rules of literals -/

/-- The character that a backslash and a second character stand for.  Octal escapes are left out, and
there is none for `u`: four digits after `\u` are replaced before literals are read. -/
def escapeValue? : Char → Option Char
  | '"' => some '"'
  | '\\' => some '\\'
  | '\'' => some '\''
  | 'b' => some '\x08'
  | 'f' => some '\x0c'
  | 'n' => some '\n'
  | 'r' => some '\r'
  | 's' => some ' '
  | 't' => some '\t'
  | _ => none

/-- Reads up to the closing quote: the text, and what follows the literal. -/
def readBody? : List Char → Option (List Char × List Char)
  | [] => none
  | '"' :: rest => some ([], rest)
  | ['\\'] => none
  | '\\' :: e :: rest =>
    (escapeValue? e).bind fun c => (readBody? rest).map fun r => (c :: r.1, r.2)
  | c :: rest =>
    if c = '\n' ∨ c = '\r' then none else (readBody? rest).map fun r => (c :: r.1, r.2)

/-- Reads a literal: its text, and what follows it. -/
def readLiteral? : List Char → Option (List Char × List Char)
  | '"' :: rest => readBody? rest
  | _ => none

/-- Whether the next character is taken along by a backslash, after one more character. -/
def escapesNext (escaped : Bool) (c : Char) : Bool :=
  c == '\\' && !escaped

/-- Whether the character after these is taken along by a backslash before it. -/
def isEscaped (before : List Char) : Bool :=
  before.foldl escapesNext false

/-- What may stand between the quotes of a literal. -/
structure IsBody (body : List Char) : Prop where
  lineFeed : '\n' ∉ body
  carriageReturn : '\r' ∉ body
  /-- No quote ends the literal early. -/
  quote : ∀ before after, body = before ++ '"' :: after → isEscaped before = true
  /-- Every backslash that is not the second half of an escape begins one. -/
  escape : ∀ before after, body = before ++ '\\' :: after → isEscaped before = false →
    ∃ e rest, after = e :: rest ∧ (escapeValue? e).isSome = true
  /-- Nothing is replaced before the literal is read. -/
  unicode : ∀ before after, body = before ++ '\\' :: 'u' :: after → isEscaped before = true
  /-- The closing quote is one. -/
  closed : isEscaped body = false

/-! ## One character -/

/-- A character stands for itself, or it is written as an escape of itself. -/
theorem escapeChar_cases (c : Char) :
    (escapeChar c = [c] ∧ c ∉ ['"', '\\', '\n', '\r']) ∨
      ∃ e, escapeChar c = ['\\', e] ∧ escapeValue? e = some c := by
  unfold escapeChar
  split
  · exact .inr ⟨'"', rfl, rfl⟩
  · exact .inr ⟨'\\', rfl, rfl⟩
  · exact .inr ⟨'n', rfl, rfl⟩
  · exact .inr ⟨'r', rfl, rfl⟩
  · exact .inr ⟨'t', rfl, rfl⟩
  · next hquote hbackslash hn hr _ =>
    refine .inl ⟨rfl, ?_⟩
    simp only [List.mem_cons, List.not_mem_nil, or_false, not_or]
    exact ⟨hquote, hbackslash, hn, hr⟩

/-- An escape is on one line. -/
theorem not_mem_of_escapeValue? {e c : Char} (h : escapeValue? e = some c) : e ∉ ['\n', '\r'] := by
  simp only [List.mem_cons, List.not_mem_nil, or_false, not_or]
  constructor
  · rintro rfl
    cases h
  · rintro rfl
    cases h

/-- However a character is written, it is read as itself. -/
theorem readBody?_escapeChar (c : Char) (rest : List Char) :
    readBody? (escapeChar c ++ rest) = (readBody? rest).map fun r => (c :: r.1, r.2) := by
  obtain ⟨hself, hc⟩ | ⟨e, hescape, hvalue⟩ := escapeChar_cases c
  · simp only [List.mem_cons, List.not_mem_nil, or_false, not_or] at hc
    obtain ⟨_, hbackslash, hn, hr⟩ := hc
    rw [hself, List.singleton_append]
    simp [readBody?, hbackslash, hn, hr]
  · rw [hescape, List.cons_append, List.singleton_append, readBody?, hvalue, Option.bind_some]

/-- No backslash is left open after a character. -/
theorem foldl_escapesNext_escapeChar (c : Char) : (escapeChar c).foldl escapesNext false = false := by
  obtain ⟨hself, hc⟩ | ⟨e, hescape, -⟩ := escapeChar_cases c
  · have hbackslash : c ≠ '\\' := fun h => hc (by simp [h])
    simp [hself, escapesNext, hbackslash]
  · simp [hescape, escapesNext]

/-! ## Whole texts -/

theorem readBody?_flatMap (text rest : List Char) :
    readBody? (text.flatMap escapeChar ++ '"' :: rest) = some (text, rest) := by
  induction text with
  | nil => rfl
  | cons c text ih => rw [List.flatMap_cons, List.append_assoc, readBody?_escapeChar, ih]; rfl

theorem isEscaped_flatMap (text : List Char) : isEscaped (text.flatMap escapeChar) = false := by
  induction text with
  | nil => rfl
  | cons c text ih =>
    rw [isEscaped, List.flatMap_cons, List.foldl_append, foldl_escapesNext_escapeChar]
    exact ih

/-- A place in the written text is a place in what one of its characters is written as. -/
theorem exists_place {f : Char → List Char} {text before after : List Char} {x : Char}
    (h : text.flatMap f = before ++ x :: after) :
    ∃ text' c text'' u v, text = text' ++ c :: text'' ∧ f c = u ++ x :: v ∧
      before = text'.flatMap f ++ u ∧ after = v ++ text''.flatMap f := by
  induction text generalizing before with
  | nil => simp at h
  | cons d text ih =>
    have hlater : ∀ before', text.flatMap f = before' ++ x :: after → before = f d ++ before' →
        ∃ text' c text'' u v, d :: text = text' ++ c :: text'' ∧ f c = u ++ x :: v ∧
          before = text'.flatMap f ++ u ∧ after = v ++ text''.flatMap f := by
      intro before' htext hbefore
      obtain ⟨text', c, text'', u, v, rfl, hc, rfl, hafter⟩ := ih htext
      exact ⟨d :: text', c, text'', u, v, rfl, hc, by simp [hbefore], hafter⟩
    rw [List.flatMap_cons] at h
    obtain ⟨before', hbefore, htext⟩ | ⟨v, hd, hrest⟩ := List.append_eq_append_iff.1 h
    · exact hlater before' htext hbefore
    · cases v with
      | nil => exact hlater [] hrest.symm (by simpa using hd.symm)
      | cons y v =>
        rw [List.cons_append, List.cons.injEq] at hrest
        obtain ⟨rfl, hafter⟩ := hrest
        exact ⟨[], d, text, before, v, rfl, hd, rfl, hafter⟩

/-- What stands at a place between the quotes: a character of its own, the backslash of an escape, or
the second character of one. -/
theorem place_cases {text before after : List Char} {x : Char}
    (h : text.flatMap escapeChar = before ++ x :: after) :
    (x ∉ ['"', '\\', '\n', '\r'] ∧ isEscaped before = false) ∨
      (x = '\\' ∧ isEscaped before = false ∧ ∃ e rest, after = e :: rest ∧ (escapeValue? e).isSome) ∨
      (x ∉ ['\n', '\r'] ∧ isEscaped before = true) := by
  obtain ⟨text', c, text'', u, v, -, hc, rfl, rfl⟩ := exists_place h
  have hbefore : isEscaped (text'.flatMap escapeChar ++ u) = u.foldl escapesNext false := by
    rw [isEscaped, List.foldl_append]
    exact congrArg (List.foldl escapesNext · u) (isEscaped_flatMap text')
  rw [hbefore]
  obtain ⟨hself, hplain⟩ | ⟨e, hescape, hvalue⟩ := escapeChar_cases c
  · rw [hself] at hc
    rcases u with _ | ⟨y, u⟩
    · obtain rfl := (List.cons.inj hc).1
      exact .inl ⟨hplain, rfl⟩
    · simp at hc
  · rw [hescape] at hc
    rcases u with _ | ⟨y, _ | ⟨z, u⟩⟩
    · obtain ⟨rfl, rfl⟩ := List.cons.inj hc
      exact .inr (.inl ⟨rfl, rfl, e, _, rfl, by rw [hvalue]; rfl⟩)
    · obtain ⟨rfl, hsecond⟩ := List.cons.inj hc
      obtain rfl := (List.cons.inj hsecond).1
      exact .inr (.inr ⟨not_mem_of_escapeValue? hvalue, rfl⟩)
    · simp at hc

theorem isBody_flatMap (text : List Char) : IsBody (text.flatMap escapeChar) := by
  have hline : ∀ x ∈ text.flatMap escapeChar, x ∉ ['\n', '\r'] := by
    intro x hx
    obtain ⟨before, after, hplace⟩ := List.append_of_mem hx
    obtain ⟨hplain, -⟩ | ⟨rfl, -⟩ | ⟨hend, -⟩ := place_cases hplace
    · exact fun hend => hplain (List.mem_cons_of_mem _ (List.mem_cons_of_mem _ hend))
    · decide
    · exact hend
  have hescape : ∀ before after, text.flatMap escapeChar = before ++ '\\' :: after →
      isEscaped before = false → ∃ e rest, after = e :: rest ∧ (escapeValue? e).isSome = true := by
    intro before after hplace hopen
    obtain ⟨hplain, -⟩ | ⟨-, -, hvalue⟩ | ⟨-, hclosed⟩ := place_cases hplace
    · exact absurd (by decide) hplain
    · exact hvalue
    · cases hopen.symm.trans hclosed
  refine ⟨fun h => hline _ h (by decide), fun h => hline _ h (by decide), ?_, hescape, ?_,
    isEscaped_flatMap text⟩
  · intro before after hplace
    obtain ⟨hplain, -⟩ | ⟨hquote, -⟩ | ⟨-, hescaped⟩ := place_cases hplace
    · exact absurd (by decide) hplain
    · cases hquote
    · exact hescaped
  · intro before after hplace
    by_contra hopen
    obtain ⟨e, rest, hrest, hvalue⟩ := hescape before _ hplace (Bool.not_eq_true _ ▸ hopen)
    obtain rfl := (List.cons.inj hrest).1
    cases hvalue

/-- **A text is written as one literal that is read as the text.**  Between the quotes there is no end
of a line, no quote that is not escaped, and no backslash outside of a complete escape. -/
theorem literal_carries_text (text : String) :
    (∃ body, (literal text).toList = '"' :: (body ++ ['"']) ∧ IsBody body) ∧
      ∀ rest, readLiteral? ((literal text).toList ++ rest) = some (text.toList, rest) := by
  have hchars : (literal text).toList = '"' :: (text.toList.flatMap escapeChar ++ ['"']) := by
    rw [literal, String.toList_ofList, literalChars]
  refine ⟨⟨_, hchars, isBody_flatMap _⟩, fun rest => ?_⟩
  rw [hchars, List.cons_append, List.append_assoc, List.singleton_append, readLiteral?,
    readBody?_flatMap]

example : literal "\\\"\n" = "\"\\\\\\\"\\n\"" := by decide

end Rendezvous.Text

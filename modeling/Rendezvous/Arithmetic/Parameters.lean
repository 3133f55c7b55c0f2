import Rendezvous.Arithmetic.Error
import Rendezvous.Text.Size

/-!
# Declared parameters and the allow-list

The cardinality parameters of a model are lower-case letters, kept in alphabetical order.  Together
with the digits, the four operators and the parentheses they are the characters that an expression
may use; `check` names the first character outside this allow-list, if the place of that character is a
text size.
-/

namespace Rendezvous.Arithmetic

/-- Inserts a letter at its alphabetical place, unless it is there already. -/
def insertLetter (c : Char) : List Char → List Char
  | [] => [c]
  | d :: rest => if c < d then c :: d :: rest else if c = d then d :: rest else d :: insertLetter c rest

@[simp] theorem mem_insertLetter {c x : Char} {cs : List Char} :
    x ∈ insertLetter c cs ↔ x = c ∨ x ∈ cs := by
  induction cs with
  | nil => simp [insertLetter]
  | cons d rest ih => grind [insertLetter]

theorem pairwise_insertLetter {c : Char} {cs : List Char} (h : cs.Pairwise (· < ·)) :
    (insertLetter c cs).Pairwise (· < ·) := by
  induction cs with
  | nil => simp [insertLetter]
  | cons d rest ih =>
    rw [List.pairwise_cons] at h
    rw [insertLetter]
    split
    · next hlt =>
      refine List.pairwise_cons.2 ⟨fun x hx => ?_, List.pairwise_cons.2 h⟩
      rcases List.mem_cons.1 hx with rfl | hx
      · exact hlt
      · exact Char.lt_trans hlt (h.1 x hx)
    · next hge =>
      split
      · exact List.pairwise_cons.2 h
      · next hne =>
        refine List.pairwise_cons.2 ⟨fun x hx => ?_, ih h.2⟩
        rcases mem_insertLetter.1 hx with rfl | hx
        · exact Decidable.byContradiction fun hd =>
            hne (Char.le_antisymm (Char.not_lt.1 hd) (Char.not_lt.1 hge))
        · exact h.1 x hx

/-- A set of lower-case letters. -/
structure Parameters where
  letters : List Char
  sorted : letters.Pairwise (· < ·)
  lower : ∀ c ∈ letters, c.isLower = true
  deriving DecidableEq

namespace Parameters

/-- No parameter is declared. -/
def empty : Parameters := ⟨[], .nil, by simp⟩

instance : Inhabited Parameters := ⟨empty⟩

def contains (ps : Parameters) (c : Char) : Bool :=
  ps.letters.contains c

/-- Whether declaring `c` would add it: a lower-case letter that is not yet declared. -/
def isNew (ps : Parameters) (c : Char) : Bool :=
  c.isLower && !ps.contains c

/-- Declares a letter.  Anything but a lower-case letter is ignored. -/
def insert (ps : Parameters) (c : Char) : Parameters :=
  if h : c.isLower = true then
    { letters := insertLetter c ps.letters
      sorted := pairwise_insertLetter ps.sorted
      lower := fun x hx => by
        rcases mem_insertLetter.1 hx with rfl | hx
        · exact h
        · exact ps.lower x hx }
  else ps

/-- The lower-case letters of a list. -/
def ofList (cs : List Char) : Parameters :=
  cs.foldl insert empty

def size (ps : Parameters) : Nat :=
  ps.letters.length

def isEmpty (ps : Parameters) : Bool :=
  ps.letters.isEmpty

/-- The allow-list as a pattern over whole texts. -/
def pattern (ps : Parameters) : String :=
  "^[+*\\-/()0-9" ++ String.ofList ps.letters ++ "]+$"

/-- The characters that join or group operands. -/
def punctuation : List Char := ['+', '-', '*', '/', '(', ')']

/-- Whether an expression may use a character. -/
def allows (ps : Parameters) (c : Char) : Bool :=
  c.isDigit || punctuation.contains c || ps.contains c

/-- The first character that is not allowed, with the bytes before it added to `offset`. -/
def firstDisallowed (ps : Parameters) (offset : Nat) : List Char → Option (Char × Nat)
  | [] => none
  | c :: rest =>
    if ps.allows c then firstDisallowed ps (offset + c.utf8Size) rest else some (c, offset)

/-- Accepts the non-empty texts of allowed characters. -/
def check (ps : Parameters) (text : List Char) : Except ExpressionError Unit :=
  if text.isEmpty then .error .empty
  else
    match ps.firstDisallowed 0 text with
    | some (c, offset) =>
      match Text.size? offset with
      | some size => .error (.disallowedCharacter c size)
      | none => .error .overflow
    | none => .ok ()

end Parameters

end Rendezvous.Arithmetic

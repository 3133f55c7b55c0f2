import Rendezvous.Text.Range

/-!
# Blank characters, words and lines

A character is blank when it has the Unicode property White_Space.  Texts are stripped of blanks, cut
into words at blanks, and cut into lines at line feeds, a carriage return before a line feed
belonging to the line break.
-/

namespace Rendezvous.Text

/-- The code points of the Unicode property White_Space. -/
def blankRanges : List (Nat × Nat) :=
  [(0x9, 0xD), (0x20, 0x20), (0x85, 0x85), (0xA0, 0xA0), (0x1680, 0x1680), (0x2000, 0x200A),
    (0x2028, 0x2029), (0x202F, 0x202F), (0x205F, 0x205F), (0x3000, 0x3000)]

def isBlank (c : Char) : Bool :=
  inRanges blankRanges c

/-- A text without its blank characters. -/
def stripBlanks (text : List Char) : List Char :=
  text.filter fun c => !isBlank c

/-- A text without the blank characters at its end. -/
def trimEnd (text : List Char) : List Char :=
  (text.reverse.dropWhile isBlank).reverse

/-- Whether a text has no character but blank ones. -/
def isAllBlank (text : List Char) : Bool :=
  text.all isBlank

/-- Puts a character in front of some words, joining it to the word that starts right there. -/
def consWord (c : Char) (joined : Bool) : List (List Char) → List (List Char)
  | w :: ws => if joined then (c :: w) :: ws else [c] :: w :: ws
  | [] => [[c]]

/-- Whether a text starts with a character that is not blank. -/
def startsWord : List Char → Bool
  | [] => false
  | c :: _ => !isBlank c

/-- The longest runs of characters that are not blank. -/
def words : List Char → List (List Char)
  | [] => []
  | c :: rest => if isBlank c then words rest else consWord c (startsWord rest) (words rest)

theorem flatten_consWord (c : Char) (joined : Bool) (ws : List (List Char)) :
    (consWord c joined ws).flatten = c :: ws.flatten := by
  cases ws with
  | nil => rfl
  | cons w ws => cases joined <;> simp [consWord]

/-- The words of a text hold exactly its characters that are not blank. -/
theorem flatten_words (text : List Char) : (words text).flatten = stripBlanks text := by
  induction text with
  | nil => rfl
  | cons c rest ih =>
    rw [words]
    split
    · next h => rw [ih, stripBlanks, stripBlanks, List.filter_cons_of_neg (by simp [h])]
    · next h => rw [flatten_consWord, ih, stripBlanks, stripBlanks, List.filter_cons_of_pos (by simp [h])]

/-- Puts a character in front of some lines. -/
def consLine (c : Char) : List (List Char) → List (List Char)
  | [] => [[c]]
  | l :: ls => (c :: l) :: ls

/-- The lines of a text, without their line breaks.  A line break at the end starts no line. -/
def lines : List Char → List (List Char)
  | [] => []
  | '\n' :: rest => [] :: lines rest
  | '\r' :: '\n' :: rest => [] :: lines rest
  | c :: rest => consLine c (lines rest)

end Rendezvous.Text

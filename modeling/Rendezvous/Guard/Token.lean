import Rendezvous.Guard.Kind
import Rendezvous.Text.Size

/-!
# Cutting a guard text into tokens

A text is cut into operators, runs of whitespace and words.  Whitespace is space, tab, line feed,
form feed and carriage return; a word is a longest run of characters that are neither whitespace nor
operators.  Nothing is dropped: the texts of the tokens put together are the text.  A character of
none of these kinds would be an error, but there is none (`TokenKind.ofChar_ne_error`).
-/

namespace Rendezvous.Guard

/-- A piece of a guard text. -/
structure Token where
  kind : TokenKind
  text : List Char
  deriving DecidableEq, Repr, Inhabited

/-- Whether a character belongs to words: it is neither whitespace nor an operator. -/
def isWordChar (c : Char) : Bool :=
  !(['&', '|', '!', '(', ')', ' ', '\t', '\r', '\n', '\x0c'].contains c)

/-- The kind of the token that a character belongs to. -/
def TokenKind.ofChar : Char → TokenKind
  | ' ' | '\t' | '\n' | '\r' | '\x0c' => whitespace
  | '&' => amp
  | '|' => pipe
  | '!' => bang
  | '(' => leftParen
  | ')' => rightParen
  | c => if isWordChar c then word else error

/-- Whether neighbouring characters of this kind form one token. -/
def TokenKind.isRun : TokenKind → Bool
  | whitespace | word => true
  | _ => false

/-- Puts a character in front of the tokens that follow it, joining it to a run of its kind. -/
def consChar (c : Char) : List Token → List Token
  | ⟨kind, text⟩ :: rest =>
    if kind = .ofChar c ∧ kind.isRun then ⟨kind, c :: text⟩ :: rest
    else ⟨.ofChar c, [c]⟩ :: ⟨kind, text⟩ :: rest
  | [] => [⟨.ofChar c, [c]⟩]

/-- The tokens of a text. -/
def tokens : List Char → List Token
  | [] => []
  | c :: rest => consChar c (tokens rest)

/-- Tokens with the number of bytes before each, starting at `offset`. -/
def located (offset : Nat) : List Token → List (UInt32 × Token)
  | [] => []
  | t :: rest => (Text.sizeOrZero offset, t) :: located (offset + Text.byteSize t.text) rest

/-- Every character has its place in some token. -/
theorem TokenKind.ofChar_ne_error (c : Char) : ofChar c ≠ error := by
  unfold ofChar
  split <;> simp_all [isWordChar]

theorem flatMap_consChar (c : Char) (ts : List Token) :
    (consChar c ts).flatMap Token.text = c :: ts.flatMap Token.text := by
  unfold consChar
  split
  · split <;> simp
  · simp

/-- The tokens of a text put together are the text. -/
theorem flatMap_tokens (text : List Char) : (tokens text).flatMap Token.text = text := by
  induction text with
  | nil => rfl
  | cons c rest ih => rw [tokens, flatMap_consChar, ih]

end Rendezvous.Guard

import Rendezvous.Text.Range
import Rendezvous.Text.IdentifierStart
import Rendezvous.Text.IdentifierPart

/-!
# Identifiers

An identifier begins with a letter, `$` or `_` and continues with letters, digits, combining marks,
connectors and `$`.  Letters and the other classes are those of the Unicode properties XID_Start and
XID_Continue.
-/

namespace Rendezvous.Text

/-- Whether a character may begin an identifier. -/
def beginsIdentifier (c : Char) : Bool :=
  c == '$' || c == '_' || inRanges identifierStart c

/-- Whether a character may continue an identifier. -/
def continuesIdentifier (c : Char) : Bool :=
  c == '$' || inRanges identifierStart c || inRanges identifierPartOnly c

/-- Whether a text is an identifier. -/
def isIdentifier : List Char → Bool
  | [] => false
  | c :: rest => beginsIdentifier c && rest.all continuesIdentifier

end Rendezvous.Text

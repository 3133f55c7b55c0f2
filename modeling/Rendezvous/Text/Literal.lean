/-!
# String literals of class sources

A string literal stands between double quotes.  Quotes and backslashes inside are preceded by a
backslash, and line feeds, carriage returns and tabs are written as escapes; every other character
stands for itself.
-/

namespace Rendezvous.Text

/-- How a character is written in a literal. -/
def escapeChar : Char → List Char
  | '"' => ['\\', '"']
  | '\\' => ['\\', '\\']
  | '\n' => ['\\', 'n']
  | '\r' => ['\\', 'r']
  | '\t' => ['\\', 't']
  | c => [c]

/-- The literal of a text. -/
def literalChars (text : List Char) : List Char :=
  '"' :: (text.flatMap escapeChar ++ ['"'])

/-- The literal of a text. -/
def literal (text : String) : String :=
  String.ofList (literalChars text.toList)

end Rendezvous.Text

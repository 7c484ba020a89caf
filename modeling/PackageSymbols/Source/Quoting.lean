/-!
# Foreign Text in Generated Code

Generated code quotes text that comes from documents in two places: in string
literals and in documentation comments. A literal puts a backslash in front of
backslashes and quotes. A comment writes markup characters as references and,
because it must stay on its line, every line terminator as a space. Both are
made character by character.

## Main definitions

* `literalChars`, `literal`: The inside of a string literal.
* `isLineTerminator`: Whether a character ends a line of code.
* `remarkChars`, `remark`: The inside of a documentation comment.
-/

namespace PackageSymbols

namespace Source

/-- A character inside a string literal. -/
def literalChar (c : Char) : List Char :=
  if c = '\\' ∨ c = '"' then ['\\', c] else [c]

/-- The characters of a text inside a string literal. -/
def literalChars (cs : List Char) : List Char :=
  cs.flatMap literalChar

/-- A text inside a string literal. -/
def literal (s : String) : String :=
  String.ofList (literalChars s.toList)

/-- Whether the character ends a line of code. -/
def isLineTerminator (c : Char) : Bool :=
  c == '\r' || c == '\n' || c == '\u2028' || c == '\u2029' || c == '\u0085'

/-- A character inside a documentation comment. -/
def remarkChar (c : Char) : List Char :=
  if c = '&' then "&amp;".toList
  else if c = '<' then "&lt;".toList
  else if c = '>' then "&gt;".toList
  else if isLineTerminator c then [' ']
  else [c]

/-- The characters of a text inside a documentation comment. -/
def remarkChars (cs : List Char) : List Char :=
  cs.flatMap remarkChar

/-- A text inside a documentation comment. -/
def remark (s : String) : String :=
  String.ofList (remarkChars s.toList)

end Source

end PackageSymbols

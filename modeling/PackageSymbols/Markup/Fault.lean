import PackageSymbols.Text.Position

/-!
# What Can Be Wrong with Markup

Every way in which a document can fail to be read is a constructor of `Cause`,
and the wording is in one place, `Cause.message`. A `Fault` says where in the
text, counted in bytes, the cause was met; an `Error` is a fault whose place has
been turned into a line and a column.

Offsets inside a cause count from the start of the piece of text the cause is
about: the content of a tag for a malformed attribute, the value itself for a
malformed reference.

## Main definitions

* `Kind`: The kinds of markup, by how they end.
* `Cause`, `Cause.message`: What is wrong, and the words for it.
* `Fault`, `Error`: A cause with its offset, and with its position.
-/

namespace PackageSymbols

namespace Markup

/-- The kinds of markup, told apart by what follows the `<`. -/
inductive Kind where
  | comment
  | characterData
  | doctype
  | instruction
  | tag
deriving DecidableEq, Repr

/-- The name of a kind of markup in a message. -/
def Kind.title : Kind → String
  | .comment => "comment"
  | .characterData => "CDATA"
  | .doctype => "DOCTYPE"
  | .instruction => "processing instruction or xml declaration"
  | .tag => "tag"

/-- What ends a kind of markup. -/
def Kind.terminator : Kind → String
  | .comment => "-->"
  | .characterData => "]]>"
  | .doctype => ">"
  | .instruction => "?>"
  | .tag => ">"

/-- What can be wrong with a reference to a character by number. -/
inductive NumberCause where
  /-- The number starts with a sign. -/
  | sign
  /-- There is no number. -/
  | empty
  /-- Something in the number is no digit. -/
  | digit
  /-- The number is 2 ^ 32 or more. -/
  | tooLarge
  /-- The number is zero. -/
  | zero
  /-- The number belongs to no character. -/
  | noCharacter (number : Nat)
deriving DecidableEq, Repr

/-- The words for a wrong character number. -/
def NumberCause.message : NumberCause → String
  | .sign => "unexpected number sign"
  | .empty => "cannot parse integer from empty string"
  | .digit => "invalid digit found in string"
  | .tooLarge => "number too large to fit in target type"
  | .zero => "0x0 character is not permitted in XML"
  | .noCharacter number => "`" ++ toString number ++ "` is not a valid codepoint"

/-- What can be wrong with a document. -/
inductive Cause where
  /-- Markup of some kind does not end. -/
  | unclosed (kind : Kind)
  /-- Nothing known begins with these characters after `<!`. -/
  | unknownMarkup
  /-- A doctype names no document type. -/
  | unnamedDoctype
  /-- An end tag has another name than the start tag it would have to match. -/
  | mismatchedEnd (expected found : String)
  /-- An end tag comes when no element is open. -/
  | unmatchedEnd (found : String)
  /-- The prefix `xml` is bound to something else than its own namespace. -/
  | rebindsXml (uri : String)
  /-- The prefix `xmlns` is bound. -/
  | rebindsXmlns (uri : String)
  /-- A prefix is bound to one of the two reserved namespaces. -/
  | bindsReserved (name uri : String)
  /-- A name uses a prefix that is bound to nothing. -/
  | undeclaredPrefix (name : String)
  /-- No `=` follows the name of an attribute. -/
  | attributeWithoutEquals (offset : Nat)
  /-- No value follows the `=` of an attribute. -/
  | attributeWithoutValue (offset : Nat)
  /-- The value of an attribute is not in quotes. -/
  | attributeUnquoted (offset : Nat)
  /-- The closing quote of an attribute value is missing. -/
  | attributeUnclosed (offset : Nat) (quote : Char)
  /-- A tag has two attributes of one name. -/
  | attributeRepeated (offset previous : Nat)
  /-- A reference has no `;`. -/
  | referenceUnclosed (start stop : Nat)
  /-- A reference names nothing known. -/
  | referenceUnknown (start stop : Nat) (name : String)
  /-- A reference by number denotes no character. -/
  | referenceNumber (cause : NumberCause)
  /-- A second root element begins. -/
  | secondRoot
  /-- Text stands before or after the root element. -/
  | textOutsideRoot
  /-- An element ends that has not begun. -/
  | unexpectedEnd
  /-- The text ends inside an element. -/
  | unclosedElement
  /-- The text holds no element. -/
  | noRoot
deriving DecidableEq, Repr

/-- A byte in hexadecimal capitals without leading zeros. -/
def byteText (b : UInt8) : String :=
  String.ofList ((Nat.toDigits 16 b.toNat).map Char.toUpper)

/-- The bytes of a text in double quotes: printable ASCII as it is, the quote behind a
    backslash, every other byte by its number. -/
def quotedBytes (s : String) : String :=
  let shown := s.toUTF8.toList.map fun b =>
    if b = 0x22 then "\\\""
    else if 0x20 ≤ b ∧ b ≤ 0x7E then String.singleton (Char.ofNat b.toNat)
    else "0x" ++ byteText b
  "\"" ++ String.join shown ++ "\""

/-- A remark about a place in the content of a tag. -/
def remarkAt (offset : Nat) (remark : String) : String :=
  "position " ++ toString offset ++ ": " ++ remark

/-- A range of offsets. -/
def rangeText (start stop : Nat) : String :=
  toString start ++ ".." ++ toString stop

/-- The words for what is wrong with a document. -/
def Cause.message : Cause → String
  | .unclosed kind =>
      "syntax error: " ++ kind.title ++ " not closed: `" ++ kind.terminator ++
        "` not found before end of input"
  | .unknownMarkup => "syntax error: unknown or missed symbol in markup"
  | .unnamedDoctype =>
      "ill-formed document: `<!DOCTYPE>` declaration does not contain a name of a document type"
  | .mismatchedEnd expected found =>
      "ill-formed document: expected `</" ++ expected ++ ">`, but `</" ++ found ++ ">` was found"
  | .unmatchedEnd found =>
      "ill-formed document: close tag `</" ++ found ++ ">` does not match any open tag"
  | .rebindsXml uri =>
      "the namespace prefix 'xml' cannot be bound to '" ++ quotedBytes uri ++ "'"
  | .rebindsXmlns uri =>
      "the namespace prefix 'xmlns' cannot be bound to '" ++ quotedBytes uri ++ "'"
  | .bindsReserved name uri =>
      "the namespace prefix '" ++ quotedBytes name ++ "' cannot be bound to '" ++ uri ++ "'"
  | .undeclaredPrefix name => "undeclared namespace prefix `" ++ name ++ "`"
  | .attributeWithoutEquals offset =>
      remarkAt offset "attribute key must be directly followed by `=` or space"
  | .attributeWithoutValue offset =>
      remarkAt offset "`=` must be followed by an attribute value"
  | .attributeUnquoted offset =>
      remarkAt offset "attribute value must be enclosed in `\"` or `'`"
  | .attributeUnclosed offset quote =>
      remarkAt offset ("missing closing quote `" ++ String.singleton quote ++
        "` in attribute value")
  | .attributeRepeated offset previous =>
      remarkAt offset ("duplicated attribute, previous declaration at position " ++
        toString previous)
  | .referenceUnclosed start stop =>
      "Error while escaping character at range " ++ rangeText start stop ++
        ": Cannot find ';' after '&'"
  | .referenceUnknown start stop name =>
      "at " ++ rangeText start stop ++ ": unrecognized entity `" ++ name ++ "`"
  | .referenceNumber cause => "invalid character reference: " ++ cause.message
  | .secondRoot => "multiple root elements"
  | .textOutsideRoot => "text is not allowed outside the root element"
  | .unexpectedEnd => "unexpected end tag"
  | .unclosedElement => "unexpected end of document: unclosed element"
  | .noRoot => "root element is missing"

/-- A cause and the byte offset it is reported at. -/
structure Fault where
  /-- Bytes before the place. -/
  offset : Nat
  /-- What is wrong there. -/
  cause : Cause
deriving DecidableEq, Repr

/-- A cause and the position it is reported at. -/
structure Error where
  /-- The place. -/
  position : Text.Position
  /-- What is wrong there. -/
  cause : Cause
deriving DecidableEq, Repr

/-- The words for an error, without the place. -/
def Error.message (e : Error) : String :=
  e.cause.message

/-- The words for an error, with the place. -/
def Error.display (e : Error) : String :=
  e.message ++ " (at " ++ e.position.display ++ ")"

end Markup

end PackageSymbols

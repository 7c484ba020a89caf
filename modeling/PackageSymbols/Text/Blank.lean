import PackageSymbols.Text.CharRanges

/-!
# Blank Characters

Values written by hand in a document carry stray space around them, and what
counts as space there is the Unicode property `White_Space`. It is wider than
the four characters that separate the parts of a tag, which are the business of
`Markup`. `trim` works on the characters of a text, so that what it drops and
what it keeps can be said about lists.

## Main definitions

* `isBlank`: Whether a character has the property `White_Space`.
* `trimChars`, `trim`: A text without the blanks at both of its ends.
* `isBlankText`: Whether nothing is left of a text after trimming.
-/

namespace PackageSymbols

namespace Text

/-- The 25 code points of the Unicode property `White_Space`. -/
def blankRanges : CharRanges :=
  [(0x9, 0xD), (0x20, 0x20), (0x85, 0x85), (0xA0, 0xA0), (0x1680, 0x1680), (0x2000, 0x200A),
   (0x2028, 0x2029), (0x202F, 0x202F), (0x205F, 0x205F), (0x3000, 0x3000)]

/-- Whether the character has the property `White_Space`. -/
def isBlank (c : Char) : Bool :=
  blankRanges.contains c

/-- The characters without the blanks at the end. -/
def trimEndChars (cs : List Char) : List Char :=
  (cs.reverse.dropWhile isBlank).reverse

/-- The characters without the blanks at both ends. -/
def trimChars (cs : List Char) : List Char :=
  trimEndChars (cs.dropWhile isBlank)

/-- The text without the blanks at both ends. -/
def trim (s : String) : String :=
  String.ofList (trimChars s.toList)

/-- Whether the text holds nothing but blanks. -/
def isBlankText (s : String) : Bool :=
  s.toList.all isBlank

end Text

end PackageSymbols

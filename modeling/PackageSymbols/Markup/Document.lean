import PackageSymbols.Markup.Tree

/-!
# Documents

The reader of documents puts the stages together: pieces, events, tree. All
offsets count from the beginning of the text after a byte order mark, if there
is one, while the lines are those of the whole text with it; so behind
a mark every place appears three bytes early, and a place in the first three
bytes of a later line appears on the line before.

The first two stages make events, and the last one needs nothing but these. What is
shown of documents takes whoever makes the events as a parameter, in
`Proofs.Markup.Readers`, with what is asked of it; the stages here are one instance.

## Main definitions

* `parse`: The root element of a document.
-/

namespace PackageSymbols

namespace Markup

open Text

/-- The character that may stand in front of a document and is no part of it. -/
def byteOrderMark : Char := '\uFEFF'

/-- The characters of a text without a byte order mark in front. -/
def dropMark : List Char → List Char
  | [] => []
  | c :: cs => if c = byteOrderMark then cs else c :: cs

/-- The root element of a document. -/
def parse (text : String) : Except Error Element :=
  let lines := LineTable.ofText text
  let cs := dropMark text.toList
  match build (utf8Length cs) (eventsOf lines.position (pieces 0 cs)) with
  | .ok root => .ok root
  | .error fault => .error { position := lines.position fault.offset, cause := fault.cause }

end Markup

end PackageSymbols

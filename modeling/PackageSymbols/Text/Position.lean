/-!
# Positions in a Text

A position names a line and a column, both counted from zero; a column counts
bytes of the UTF-8 form, because readers locate things by byte offset. The
table of line starts is built once per text and answers every offset. Offsets
beyond the end of the text stand for the end, and offsets of four gigabytes or
more stand for the last one below, so a position always fits 32 bits.

The length of a text has to fit 32 bits as well. There is no table of a text of
`2 ^ 32` bytes or more: the attempt to make one ends without an answer, and with it
all that was to be done with the text. Such texts are left out of the model.
`LineTable.ofText` is a total function and gives them a table too, so what follows
from it about a text of that size is about nothing that can be observed.

## Main definitions

* `utf8Length`: Bytes that a run of characters takes.
* `Position`: A line and a column.
* `LineTable`: Where the lines of a text begin, and its length.
* `LineTable.position`: The position of a byte offset.
-/

namespace PackageSymbols

namespace Text

/-- Bytes of the UTF-8 form of a run of characters. -/
def utf8Length : List Char → Nat
  | [] => 0
  | c :: cs => c.utf8Size + utf8Length cs

@[simp] theorem utf8Length_nil : utf8Length [] = 0 := rfl

@[simp] theorem utf8Length_cons (c : Char) (cs : List Char) :
    utf8Length (c :: cs) = c.utf8Size + utf8Length cs := rfl

@[simp] theorem utf8Length_append (xs ys : List Char) :
    utf8Length (xs ++ ys) = utf8Length xs + utf8Length ys := by
  induction xs with
  | nil => simp only [List.nil_append, utf8Length_nil, Nat.zero_add]
  | cons c cs ih => simp only [List.cons_append, utf8Length_cons, ih, Nat.add_assoc]

/-- A line and a column, both counted from zero, the column in bytes. -/
structure Position where
  /-- Lines before this one. -/
  line : Nat
  /-- Bytes before this one on its line. -/
  column : Nat
deriving DecidableEq, Repr, Inhabited

/-- The position as people count: both parts from one. -/
def Position.display (p : Position) : String :=
  toString (p.line + 1) ++ ":" ++ toString (p.column + 1)

/-- Where the lines of a text begin, and how long the text is. -/
structure LineTable where
  /-- Byte offsets at which a line begins, in order, `0` first. -/
  starts : List Nat
  /-- Bytes of the whole text. -/
  size : Nat
deriving DecidableEq, Repr

/-- The offsets right after the line feeds of a text that begins at `offset`. -/
def lineStartsFrom (offset : Nat) : List Char → List Nat
  | [] => []
  | c :: cs =>
      let next := offset + c.utf8Size
      if c = '\n' then next :: lineStartsFrom next cs else lineStartsFrom next cs

/-- The line table of a text of less than `2 ^ 32` bytes. Only a line feed ends a line. -/
def LineTable.ofText (s : String) : LineTable where
  starts := 0 :: lineStartsFrom 0 s.toList
  size := utf8Length s.toList

/-- How many lines the text has: one more than its line feeds. -/
def LineTable.lineCount (table : LineTable) : Nat :=
  table.starts.length

/-- The greatest offset that a position is computed for. -/
def maxOffset : Nat := UInt32.size - 1

/-- The position of a byte offset: the last line that begins at or before it, and the bytes
    since that line began. -/
def LineTable.position (table : LineTable) (offset : Nat) : Position :=
  let offset := min (min offset maxOffset) table.size
  let begun := table.starts.takeWhile (· ≤ offset)
  { line := begun.length - 1, column := offset - begun.getLastD 0 }

end Text

end PackageSymbols

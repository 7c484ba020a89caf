import PackageSymbols.Proofs.Markup.Positions
import PackageSymbols.Proofs.Markup.Progress

/-!
# Positions Are Carried Along

The reader looks up where a tag is when it comes to it, puts the position into the
tree and does not look at it again. So it makes no difference whether positions are
changed before reading or afterwards: with other places the same tree is read, with
its positions moved (`Progress.read_moved`).

Every document can therefore be read in two steps. The first needs no lines; it
makes a tree with byte offsets in place of positions, its `outline`. The second
turns the offsets into lines and columns. Two documents that differ only in what
their lines are have the same outline.

## Main definitions

* `Event.moved`, `Builder.moved`, `Progress.moved`: What is read, with positions
  moved.
* `outline`: What is read from a text, with offsets as columns of a single line.

## Theorems

* `Progress.handle_moved`, `Progress.read_moved`: Positions can be moved before or
  after reading.
* `parse_eq_outline`: A document is its outline on lines.
-/

namespace PackageSymbols

namespace Markup

open Text

/-- An event whose tag is moved. -/
def Event.moved (f : Position → Position) : Event → Event
  | .start head => .start (head.moved f)
  | .empty head => .empty (head.moved f)
  | .finish => .finish
  | .text content => .text content

/-- An element that has begun, with positions moved. -/
def Frame.moved (f : Position → Position) (frame : Frame) : Frame where
  head := frame.head.moved f
  content := Node.movedAll f frame.content

/-- A tree that is being built, with positions moved. -/
def Builder.moved (f : Position → Position) (b : Builder) : Builder where
  frames := b.frames.map (Frame.moved f)
  root := b.root.map (Element.moved f)

/-- What is known after some pieces, with positions moved. -/
def Progress.moved (f : Position → Position) (s : Progress) : Progress where
  opened := s.opened
  builder := s.builder.moved f

variable (f : Position → Position)

section Building

theorem Frame.close_moved (frame : Frame) : (frame.moved f).close = frame.close.moved f := by
  rw [Frame.close, Frame.close, Element.moved, Node.movedAll_eq_map, List.map_reverse,
    ← Node.movedAll_eq_map]
  rfl

theorem Builder.place_moved (b : Builder) (e : Element) :
    (b.moved f).place (e.moved f) = (b.place e).map (Builder.moved f) := by
  rcases b with ⟨frames, root⟩
  cases frames with
  | nil =>
      cases root with
      | none => rfl
      | some other => rfl
  | cons frame frames => rfl

theorem Builder.step_moved (b : Builder) (event : Event) :
    (b.moved f).step (event.moved f) = (b.step event).map (Builder.moved f) := by
  rcases b with ⟨frames, root⟩
  cases event with
  | start head =>
      cases frames with
      | nil =>
          cases root with
          | none => rfl
          | some other => rfl
      | cons frame frames => rfl
  | empty head => exact Builder.place_moved f ⟨frames, root⟩ ⟨head, []⟩
  | finish =>
      cases frames with
      | nil => rfl
      | cons frame frames =>
          refine Eq.trans ?_ (Builder.place_moved f ⟨frames, root⟩ frame.close)
          rw [← Frame.close_moved]
          rfl
  | text content =>
      cases frames with
      | nil =>
          simp only [Builder.moved, Builder.step, Event.moved, List.map_nil]
          split
          · rfl
          · rfl
      | cons frame frames => rfl

theorem Builder.close_moved (stop : Nat) (fault : Option Fault) (b : Builder) :
    (b.moved f).close stop fault = (b.close stop fault).map (Element.moved f) := by
  rcases b with ⟨frames, root⟩
  cases fault with
  | some fault => rfl
  | none =>
      cases frames with
      | nil =>
          cases root with
          | none => rfl
          | some root => rfl
      | cons frame frames => rfl

end Building

section Reading

variable {place : Nat → Position}

theorem readHead_map (scope : Scope) (tag : Tag) (position : Position) :
    readHead scope tag (f position) = (readHead scope tag position).map (Head.moved f) := by
  rw [readHead, readHead]
  cases scope.elementName tag.name with
  | error cause => rfl
  | ok name =>
      cases (tag.distinctAttributes.traverse (readAttribute scope)).toExcept with
      | error cause => rfl
      | ok attributes => rfl

theorem readTag_map (outer : Scope) (offset : Nat) (position : Position) (tag : Tag) :
    readTag outer offset (f position) tag =
      (readTag outer offset position tag).map fun found => (found.1, found.2.moved f) := by
  rw [readTag, readTag]
  cases outer.declare tag.attributes.items with
  | error cause => rfl
  | ok scope =>
      simp only [readHead_map f]
      cases readHead scope tag position with
      | error cause => rfl
      | ok head => rfl

theorem readPiece_moved (opened : List OpenTag) (piece : Located Piece) :
    readPiece (fun offset => f (place offset)) opened piece =
      (readPiece place opened piece).map fun found => (found.1.map (Event.moved f), found.2) := by
  rcases piece with ⟨offset, piece⟩
  cases piece with
  | aside => rfl
  | characterData chars => rfl
  | text chars =>
      simp only [readPiece]
      cases resolve chars with
      | error cause => rfl
      | ok content => rfl
  | startTag content =>
      simp only [readPiece, readTag_map f]
      cases readTag (scopeInside opened) offset (place offset) (Tag.ofContent content) with
      | error fault => rfl
      | ok found => rfl
  | emptyTag content =>
      simp only [readPiece, readTag_map f]
      cases readTag (scopeInside opened) offset (place offset) (Tag.ofContent content) with
      | error fault => rfl
      | ok found => rfl
  | endTag name =>
      cases opened with
      | nil => rfl
      | cons innermost rest =>
          simp only [readPiece]
          split
          · rfl
          · rfl

namespace Progress

variable (s : Progress)

/-- With places that are moved, a piece leads to the same state with positions moved. -/
theorem handle_moved (piece : Located Piece) :
    (s.moved f).handle (fun offset => f (place offset)) piece =
      (s.handle place piece).map (Progress.moved f) := by
  rw [handle, handle, readPiece_moved]
  have hopened : (s.moved f).opened = s.opened := rfl
  rw [hopened]
  cases readPiece place s.opened piece with
  | error fault => rfl
  | ok found =>
      rcases found with ⟨event, opened⟩
      cases event with
      | none => rfl
      | some event =>
          have hstep : (s.moved f).builder.step (event.moved f) =
              (s.builder.step event).map (Builder.moved f) := Builder.step_moved f s.builder event
          simp only [Except.map, Option.map_some, hstep]
          cases s.builder.step event with
          | error cause => rfl
          | ok builder => rfl

/-- With places that are moved, the same tree is read with positions moved. -/
theorem read_moved (stop : Nat) (pieces : Reading Fault (Located Piece)) :
    (s.moved f).read (fun offset => f (place offset)) stop pieces =
      (s.read place stop pieces).map (Element.moved f) := by
  rcases pieces with ⟨items, fault⟩
  simp only [read]
  induction items generalizing s with
  | nil => exact Builder.close_moved f stop fault s.builder
  | cons piece items ih =>
      rw [readAll, readAll, handle_moved]
      cases s.handle place piece with
      | error fault => rfl
      | ok next => exact ih next

end Progress

/-- What is read from a text, with offsets as columns of a single line. -/
def outline (cs : List Char) : Except Fault Element :=
  Progress.start.read (fun offset => ⟨0, offset⟩) (utf8Length cs) (pieces 0 cs)

/-- The position of an offset that is given as a column of a single line. -/
def onLines (lines : LineTable) (p : Position) : Position :=
  lines.position p.column

/-- A document is its outline on lines. -/
theorem parse_eq_outline (text : String) :
    parse text =
      ((outline (dropMark text.toList)).map
        (Element.moved (onLines (LineTable.ofText text)))).mapError
          fun fault => { position := (LineTable.ofText text).position fault.offset
                         cause := fault.cause } := by
  have hstart : Progress.start.moved (onLines (LineTable.ofText text)) = Progress.start := rfl
  rw [parse_eq_read, outline, ← Progress.read_moved, hstart]
  rfl

end Reading

end Markup

end PackageSymbols

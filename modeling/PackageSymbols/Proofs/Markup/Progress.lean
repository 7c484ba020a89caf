import PackageSymbols.Markup.Document

/-!
# Reading Piece by Piece

The stages of the reader stand one behind the other: all pieces of a document, then
all of its events, then the tree. What a stage does with a piece depends only on
the pieces before it, though, and a fault counts only if no later stage has found
one before it. So the reader is at the same time a loop, which takes one piece
after the other through all stages and ends with the first fault.

`Progress` is what this loop knows between two pieces: the tags of the elements that
are open, for the names and prefixes, and the tree so far.

## Main definitions

* `Progress`: What is known after some pieces.
* `Progress.handle`: Takes one piece through all stages.
* `Progress.read`: Takes a row of pieces through all stages, up to a fault.

## Theorems

* `build_eq_read`: The stages one behind the other are the loop.
* `parse_eq_read`: The answer of the reader is that of the loop.
-/

namespace PackageSymbols

namespace Markup

open Text

/-- The root of a document without further events, which ends at offset `stop` unless a fault has
    come before its end. -/
def Builder.close (stop : Nat) (fault : Option Fault) (b : Builder) : Except Fault Element :=
  match fault with
  | some fault => .error fault
  | none =>
      match b.finish with
      | .ok root => .ok root
      | .error cause => .error ⟨stop, cause⟩

/-- What is known after some pieces of a document. -/
structure Progress where
  /-- The elements that are open, as the tags inside them see it. -/
  opened : List OpenTag
  /-- The tree so far. -/
  builder : Builder

namespace Progress

/-- What is known before all pieces. -/
def start : Progress where
  opened := []
  builder := Builder.start

/-- Takes one piece through all stages. -/
def handle (place : Nat → Position) (s : Progress) (piece : Located Piece) :
    Except Fault Progress :=
  match readPiece place s.opened piece with
  | .error fault => .error fault
  | .ok (none, opened) => .ok { s with opened := opened }
  | .ok (some event, opened) =>
      match s.builder.step event with
      | .ok builder => .ok { opened := opened, builder := builder }
      | .error cause => .error ⟨piece.offset, cause⟩

/-- The root of a document with further pieces, or the first fault. -/
def readAll (place : Nat → Position) (stop : Nat) (fault : Option Fault) (s : Progress) :
    List (Located Piece) → Except Fault Element
  | [] => s.builder.close stop fault
  | piece :: rest =>
      match s.handle place piece with
      | .ok next => next.readAll place stop fault rest
      | .error fault => .error fault

/-- The root of a document of which the given pieces are left. -/
def read (place : Nat → Position) (stop : Nat) (s : Progress)
    (pieces : Reading Fault (Located Piece)) : Except Fault Element :=
  s.readAll place stop pieces.fault pieces.items

variable {place : Nat → Position} {stop : Nat} {s next : Progress} {piece : Located Piece}

theorem read_cons_of_ok (h : s.handle place piece = .ok next)
    (rest : Reading Fault (Located Piece)) :
    s.read place stop (.cons piece rest) = next.read place stop rest := by
  rw [read, Reading.cons, readAll, h]
  rfl

theorem read_cons_of_error {fault : Fault} (h : s.handle place piece = .error fault)
    (rest : Reading Fault (Located Piece)) :
    s.read place stop (.cons piece rest) = .error fault := by
  rw [read, Reading.cons, readAll, h]

/-- A builder that goes on with the events of further pieces is the loop over these. -/
theorem run_eventsFrom (fault : Option Fault) (s : Progress) (items : List (Located Piece)) :
    (s.builder.run (eventsFrom place fault s.opened items).items).bind
        (Builder.close stop (eventsFrom place fault s.opened items).fault) =
      s.readAll place stop fault items := by
  induction items generalizing s with
  | nil => rfl
  | cons piece items ih =>
      rw [readAll, handle, eventsFrom]
      cases readPiece place s.opened piece with
      | error fault => rfl
      | ok found =>
          rcases found with ⟨event, opened⟩
          cases event with
          | none => exact ih { s with opened := opened }
          | some event =>
              simp only [Reading.cons, Builder.run]
              -- A fault of the builder comes before all faults of later pieces.
              cases s.builder.step event with
              | error cause => rfl
              | ok builder => exact ih { opened := opened, builder := builder }

end Progress

/-- The stages one behind the other are a loop over the pieces. -/
theorem build_eq_read (place : Nat → Position) (stop : Nat)
    (pieces : Reading Fault (Located Piece)) :
    build stop (eventsOf place pieces) = Progress.start.read place stop pieces := by
  rw [Progress.read, ← Progress.run_eventsFrom, build, eventsOf]
  refine congrArg (Except.bind _) (funext fun b => ?_)
  have hopened : Progress.start.opened = [] := rfl
  rw [hopened]
  cases (eventsFrom place pieces.fault [] pieces.items).fault with
  | some fault => rfl
  | none => rfl

/-- The answer of the reader is that of the loop, with its fault on a line. -/
theorem parse_eq_read (text : String) :
    parse text = (Progress.start.read (LineTable.ofText text).position
      (utf8Length (dropMark text.toList)) (pieces 0 (dropMark text.toList))).mapError
        fun fault => { position := (LineTable.ofText text).position fault.offset
                       cause := fault.cause } := by
  simp only [parse, build_eq_read]
  cases Progress.start.read (LineTable.ofText text).position
      (utf8Length (dropMark text.toList)) (pieces 0 (dropMark text.toList)) with
  | error fault => rfl
  | ok root => rfl

end Markup

end PackageSymbols

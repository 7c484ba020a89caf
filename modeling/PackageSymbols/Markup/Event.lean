import PackageSymbols.Markup.Element
import PackageSymbols.Markup.Reference
import PackageSymbols.Markup.Scope

/-!
# Events of a Document

Between the pieces of a document and its tree stand events: a tag that has been
understood, a text that has been decoded. What it takes to understand a tag is
known from the tags around it, namely the prefixes in scope and, for an end tag,
the name it has to have; so the elements that are open are carried along. Pieces
that say nothing about the tree give no event.

Of the faults in one tag the first in this order counts: its declarations of
namespaces, its own name, its attributes from left to right. A declaration at
fault is reported at the beginning of the document, all others at the tag.

## Main definitions

* `Event`: A tag or a text, decoded.
* `OpenTag`: What is remembered of an open element.
* `readHead`: What a tag says.
* `readPiece`: The event of a piece.
* `eventsOf`: The events of a row of pieces.
-/

namespace PackageSymbols

namespace Markup

open Text

/-- A tag that has been understood or a text that has been decoded. -/
inductive Event where
  /-- An element begins. -/
  | start (head : Head)
  /-- An element with nothing inside. -/
  | empty (head : Head)
  /-- The innermost open element ends. -/
  | finish
  /-- Text or character data. -/
  | text (content : String)
deriving DecidableEq, Repr

/-- What is remembered of an open element. -/
structure OpenTag where
  /-- Its name as written. -/
  name : List Char
  /-- The prefixes in scope inside. -/
  scope : Scope
deriving Repr

/-- The prefixes in scope inside the open elements, the innermost of which comes first. -/
def scopeInside : List OpenTag → Scope
  | [] => Scope.initial
  | tag :: _ => tag.scope

/-- The attribute that a raw one stands for, if it does not declare a namespace. -/
def readAttribute (scope : Scope) (a : RawAttribute) : Except Cause (Option Attribute) :=
  match Declaration.ofKey? a.key with
  | some _ => .ok none
  | none => do
      let (uri, name) ← scope.attributeName a.key
      let value ← resolve a.value
      return some { uri := uri, name := name, value := value }

/-- What a tag says, given the scope inside it. -/
def readHead (scope : Scope) (tag : Tag) (position : Position) : Except Cause Head := do
  let (uri, name) ← scope.elementName tag.name
  let attributes ← (tag.distinctAttributes.traverse (readAttribute scope)).toExcept
  return { uri := uri, name := name, attributes := attributes.filterMap id, position := position }

/-- The scope inside a tag and what the tag says. -/
def readTag (outer : Scope) (offset : Nat) (position : Position) (tag : Tag) :
    Except Fault (Scope × Head) :=
  match outer.declare tag.attributes.items with
  | .error cause => .error ⟨0, cause⟩
  | .ok scope =>
      match readHead scope tag position with
      | .error cause => .error ⟨offset, cause⟩
      | .ok head => .ok (scope, head)

/-- The event of a piece, if it gives one, and the elements that are open after it. `place` is
    where offsets are in the text. -/
def readPiece (place : Nat → Position) (opened : List OpenTag) (piece : Located Piece) :
    Except Fault (Option Event × List OpenTag) :=
  match piece.value with
  | .aside => .ok (none, opened)
  | .characterData chars => .ok (some (.text (String.ofList chars)), opened)
  | .text chars =>
      match resolve chars with
      | .ok content => .ok (some (.text content), opened)
      | .error cause => .error ⟨piece.offset, cause⟩
  | .startTag content => do
      let tag := Tag.ofContent content
      let (scope, head) ← readTag (scopeInside opened) piece.offset (place piece.offset) tag
      return (some (.start head), ⟨tag.name, scope⟩ :: opened)
  | .emptyTag content => do
      let tag := Tag.ofContent content
      let (_, head) ← readTag (scopeInside opened) piece.offset (place piece.offset) tag
      return (some (.empty head), opened)
  | .endTag name =>
      match opened with
      | [] => .error ⟨piece.offset, .unmatchedEnd (String.ofList name)⟩
      | innermost :: rest =>
          if name = innermost.name then .ok (some .finish, rest)
          else .error ⟨piece.offset,
            .mismatchedEnd (String.ofList innermost.name) (String.ofList name)⟩

/-- The events of a row of pieces, given the elements that are open before it. -/
def eventsFrom (place : Nat → Position) (fault : Option Fault) (opened : List OpenTag) :
    List (Located Piece) → Reading Fault (Located Event)
  | [] => { items := [], fault := fault }
  | piece :: rest =>
      match readPiece place opened piece with
      | .error fault => .fail fault
      | .ok (none, opened) => eventsFrom place fault opened rest
      | .ok (some event, opened) =>
          .cons ⟨piece.offset, event⟩ (eventsFrom place fault opened rest)

/-- The events of the pieces of a document. -/
def eventsOf (place : Nat → Position) (pieces : Reading Fault (Located Piece)) :
    Reading Fault (Located Event) :=
  eventsFrom place pieces.fault [] pieces.items

end Markup

end PackageSymbols

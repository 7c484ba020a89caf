import PackageSymbols.Markup.Event
import PackageSymbols.Text.Blank

/-!
# From Events to a Tree

Events are put together into a tree by keeping the elements that have begun and
not yet ended, the innermost first, and the root once it has ended. A document
is one element with nothing but blanks and asides around it, and the builder
notices the first event that cannot be part of one.

`Node.events` goes the other way, through the tree in document order. It does
not tell an empty element written as one tag from one written as two.

## Main definitions

* `Frame`, `Builder`: An element that has begun, and the state of the tree.
* `Builder.step`: The state after one more event.
* `build`: The root of a document with given events.
* `Node.events`: The events that a tree is read from.
-/

namespace PackageSymbols

namespace Markup

/-- An element that has begun. -/
structure Frame where
  /-- Its tag. -/
  head : Head
  /-- What is inside so far, the last first. -/
  content : List Node

/-- The element that ends here. -/
def Frame.close (frame : Frame) : Element where
  head := frame.head
  content := frame.content.reverse

/-- A tree that is being built. -/
structure Builder where
  /-- The elements that have begun and not ended, the innermost first. -/
  frames : List Frame
  /-- The root, once it has ended. -/
  root : Option Element

namespace Builder

/-- The state before all events. -/
def start : Builder :=
  { frames := [], root := none }

/-- Puts a finished element where it belongs: into the innermost open one, or at the root. -/
def place (b : Builder) (e : Element) : Except Cause Builder :=
  match b.frames with
  | frame :: rest =>
      .ok { b with frames := { frame with content := e.node :: frame.content } :: rest }
  | [] =>
      match b.root with
      | none => .ok { b with root := some e }
      | some _ => .error .secondRoot

/-- The state after one more event. -/
def step (b : Builder) : Event → Except Cause Builder
  | .start head =>
      if b.frames.isEmpty && b.root.isSome then .error .secondRoot
      else .ok { b with frames := { head := head, content := [] } :: b.frames }
  | .empty head => b.place { head := head, content := [] }
  | .finish =>
      match b.frames with
      | [] => .error .unexpectedEnd
      | frame :: rest => { b with frames := rest }.place frame.close
  | .text content =>
      match b.frames with
      | frame :: rest =>
          .ok { b with frames := { frame with content := .text content :: frame.content } :: rest }
      | [] => if Text.isBlankText content then .ok b else .error .textOutsideRoot

/-- The state after a row of events, or the first fault. -/
def run (b : Builder) : List (Located Event) → Except Fault Builder
  | [] => .ok b
  | event :: rest =>
      match b.step event.value with
      | .ok b => b.run rest
      | .error cause => .error ⟨event.offset, cause⟩

/-- The root of a tree that is complete. -/
def finish (b : Builder) : Except Cause Element :=
  match b.frames, b.root with
  | _ :: _, _ => .error .unclosedElement
  | [], some root => .ok root
  | [], none => .error .noRoot

end Builder

/-- The root of a document with the given events, the text of which ends at offset `stop`. -/
def build (stop : Nat) (events : Reading Fault (Located Event)) : Except Fault Element := do
  let b ← Builder.start.run events.items
  match events.fault with
  | some fault => .error fault
  | none =>
      match b.finish with
      | .ok root => .ok root
      | .error cause => .error ⟨stop, cause⟩

mutual

/-- The events that a node is read from, each element written with two tags. -/
def Node.events : Node → List Event
  | .text content => [.text content]
  | .element head content => .start head :: Node.eventsOfAll content ++ [.finish]

/-- The events that a row of nodes is read from. -/
def Node.eventsOfAll : List Node → List Event
  | [] => []
  | node :: rest => node.events ++ Node.eventsOfAll rest

end

end Markup

end PackageSymbols

import PackageSymbols.Proofs.Markup.Writing

/-!
# Positions Take No Part

A tree that was written is known up to the positions of its elements, since
nobody but the reader knows where in a text an element stands. Nothing that is
asked of a tree depends on them: with its positions moved, the same elements are
found in it under the same names and in the same order, and they hold the same
text.

## Main definitions

* `Node.moved`, `Element.moved`: A tree in which the positions are moved.

## Theorems

* `Element.unplaced_eq_moved`, `Element.unplaced_moved`: A tree that is moved is the
  same up to positions.
* `Element.descendants_moved`: Moving keeps the elements and their order.
* `Element.allNamed_moved`, `Element.firstNamed?_moved`: The same children are found.
* `Element.textContent_moved`: They hold the same text.
-/

namespace PackageSymbols

namespace Markup

open Text

/-- A tag elsewhere. -/
def Head.moved (f : Position → Position) (head : Head) : Head :=
  { head with position := f head.position }

mutual

/-- A node in which the positions are moved. -/
def Node.moved (f : Position → Position) : Node → Node
  | .text content => .text content
  | .element head content => .element (head.moved f) (Node.movedAll f content)

/-- A row of nodes in which the positions are moved. -/
def Node.movedAll (f : Position → Position) : List Node → List Node
  | [] => []
  | node :: rest => node.moved f :: Node.movedAll f rest

end

/-- An element in which the positions are moved. -/
def Element.moved (f : Position → Position) (e : Element) : Element where
  head := e.head.moved f
  content := Node.movedAll f e.content

variable (f : Position → Position)

theorem Node.movedAll_eq_map (nodes : List Node) :
    Node.movedAll f nodes = nodes.map (Node.moved f) := by
  induction nodes with
  | nil => rfl
  | cons node nodes ih => rw [Node.movedAll, ih, List.map_cons]

mutual

theorem Node.unplaced_eq_moved : ∀ node : Node, node.unplaced = node.moved fun _ => default
  | .text _ => rfl
  | .element head content =>
      congrArg (Node.element (head.moved fun _ => default))
        (Node.unplacedAll_eq_movedAll content)

theorem Node.unplacedAll_eq_movedAll :
    ∀ nodes : List Node, Node.unplacedAll nodes = Node.movedAll (fun _ => default) nodes
  | [] => rfl
  | node :: rest =>
      congrArg₂ List.cons (Node.unplaced_eq_moved node) (Node.unplacedAll_eq_movedAll rest)

end

/-- A tree without positions is a tree with all positions at one place. -/
theorem Element.unplaced_eq_moved (e : Element) : e.unplaced = e.moved fun _ => default :=
  congrArg (Element.mk (e.head.moved fun _ => default)) (Node.unplacedAll_eq_movedAll e.content)

mutual

theorem Node.unplaced_moved : ∀ node : Node, (node.moved f).unplaced = node.unplaced
  | .text _ => rfl
  | .element head content => by
      rw [Node.moved, Node.unplaced, Node.unplaced, Node.unplacedAll_movedAll content]
      rfl

theorem Node.unplacedAll_movedAll :
    ∀ nodes : List Node, Node.unplacedAll (Node.movedAll f nodes) = Node.unplacedAll nodes
  | [] => rfl
  | node :: rest => by
      rw [Node.movedAll, Node.unplacedAll, Node.unplacedAll, Node.unplaced_moved node,
        Node.unplacedAll_movedAll rest]

end

/-- A tree that is moved is the same up to positions. -/
theorem Element.unplaced_moved (e : Element) : (e.moved f).unplaced = e.unplaced := by
  rw [Element.unplaced, Element.unplaced, Element.moved, Node.unplacedAll_movedAll]
  rfl

mutual

theorem Node.elements_moved :
    ∀ node : Node, (node.moved f).elements = node.elements.map (Element.moved f)
  | .text _ => rfl
  | .element head content => by
      rw [Node.moved, Node.elements, Node.elements, Node.elementsOf_movedAll content,
        List.map_cons]
      rfl

theorem Node.elementsOf_movedAll : ∀ nodes : List Node,
    Node.elementsOf (Node.movedAll f nodes) = (Node.elementsOf nodes).map (Element.moved f)
  | [] => rfl
  | node :: rest => by
      rw [Node.movedAll, Node.elementsOf, Node.elementsOf, Node.elements_moved node,
        Node.elementsOf_movedAll rest, List.map_append]

end

/-- Moving keeps the elements of a tree and their order. -/
theorem Element.descendants_moved (e : Element) :
    (e.moved f).descendants = e.descendants.map (Element.moved f) :=
  Node.elements_moved f e.node

theorem Node.filterMap_movedAll (nodes : List Node) :
    (Node.movedAll f nodes).filterMap Node.element? =
      (nodes.filterMap Node.element?).map (Element.moved f) := by
  rw [Node.movedAll_eq_map, List.filterMap_map, List.map_filterMap]
  refine congrArg (List.filterMap · nodes) (funext fun node => ?_)
  cases node with
  | text content => rfl
  | element head content => rfl

theorem Element.children_moved (e : Element) :
    (e.moved f).children = e.children.map (Element.moved f) :=
  Node.filterMap_movedAll f e.content

theorem Element.allNamed_moved (e : Element) (name : String) :
    (e.moved f).allNamed name = (e.allNamed name).map (Element.moved f) := by
  rw [Element.allNamed, Element.allNamed, Element.children_moved, List.filter_map]
  rfl

theorem Element.firstNamed?_moved (e : Element) (name : String) :
    (e.moved f).firstNamed? name = (e.firstNamed? name).map (Element.moved f) := by
  rw [Element.firstNamed?, Element.firstNamed?, Element.children_moved, List.find?_map]
  rfl

mutual

theorem Node.textContent_moved : ∀ node : Node, (node.moved f).textContent = node.textContent
  | .text _ => rfl
  | .element _ content => Node.textOf_movedAll content

theorem Node.textOf_movedAll :
    ∀ nodes : List Node, Node.textOf (Node.movedAll f nodes) = Node.textOf nodes
  | [] => rfl
  | node :: rest =>
      congrArg₂ (· ++ ·) (Node.textContent_moved node) (Node.textOf_movedAll rest)

end

theorem Element.textContent_moved (e : Element) : (e.moved f).textContent = e.textContent :=
  Node.textOf_movedAll f e.content

end Markup

end PackageSymbols

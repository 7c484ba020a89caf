import PackageSymbols.Text.Position

/-!
# Elements

What a document is once it has been read: a tree of elements and texts. An
element keeps the namespace its name belongs to, and a child is only found under
a name when it is in the same namespace as its parent, so that an element of a
foreign vocabulary never stands in for one of the schema. Attributes are found
by name only when they have no namespace at all.

`Node` is the inductive type of the tree. `Element` is the view of an element
node, as the readers of schemas take it.

## Main definitions

* `Head`: All that the tag of an element says.
* `Node`, `Element`: The tree, and an element in it.
* `Element.valueOf?`, `Element.valueOf`: An attribute without namespace.
* `Element.children`, `Element.allNamed`, `Element.firstNamed?`: Elements inside.
* `Element.textContent`: The text inside, with all markup taken out.
* `Element.descendants`: The elements of a tree in document order.
-/

namespace PackageSymbols

namespace Markup

/-- An attribute of an element. -/
structure Attribute where
  /-- The namespace of the name. -/
  uri : Option String
  /-- The name without prefix. -/
  name : String
  /-- The value with its references replaced. -/
  value : String
deriving DecidableEq, Repr

/-- All that the tag of an element says. -/
structure Head where
  /-- The namespace of the name. -/
  uri : Option String
  /-- The name without prefix. -/
  name : String
  /-- The attributes, in order, without declarations of namespaces. -/
  attributes : List Attribute
  /-- Where the tag begins. -/
  position : Text.Position
deriving DecidableEq, Repr

/-- A text or an element with what is inside. -/
inductive Node where
  | text (content : String)
  | element (head : Head) (content : List Node)
deriving Repr

/-- An element of a document. -/
structure Element where
  /-- Its tag. -/
  head : Head
  /-- What is inside, in order. -/
  content : List Node
deriving Repr

/-- The element as a node of the tree. -/
def Element.node (e : Element) : Node :=
  .element e.head e.content

/-- The element that a node is, if it is one. -/
def Node.element? : Node → Option Element
  | .text _ => none
  | .element head content => some ⟨head, content⟩

namespace Element

/-- The value of the first attribute that has the given name and no namespace. -/
def valueOf? (e : Element) (name : String) : Option String :=
  (e.head.attributes.find? fun a => a.uri.isNone && a.name == name).map (·.value)

/-- The value of an attribute, empty when it is absent. -/
def valueOf (e : Element) (name : String) : String :=
  (e.valueOf? name).getD ""

/-- The elements directly inside, in order. -/
def children (e : Element) : List Element :=
  e.content.filterMap Node.element?

/-- Whether an element inside counts as a child under the given name: it has that name in the
    namespace of its parent. -/
def answersTo (e : Element) (name : String) (child : Element) : Bool :=
  child.head.name == name && child.head.uri == e.head.uri

/-- The children under a name, in order. -/
def allNamed (e : Element) (name : String) : List Element :=
  e.children.filter (e.answersTo name)

/-- The first child under a name. -/
def firstNamed? (e : Element) (name : String) : Option Element :=
  e.children.find? (e.answersTo name)

end Element

mutual

/-- The text of a node and of all nodes inside. -/
def Node.textContent : Node → String
  | .text content => content
  | .element _ content => Node.textOf content

/-- The text of a row of nodes. -/
def Node.textOf : List Node → String
  | [] => ""
  | node :: rest => node.textContent ++ Node.textOf rest

end

mutual

/-- The elements of a node, the outer before the inner. -/
def Node.elements : Node → List Element
  | .text _ => []
  | .element head content => ⟨head, content⟩ :: Node.elementsOf content

/-- The elements of a row of nodes. -/
def Node.elementsOf : List Node → List Element
  | [] => []
  | node :: rest => node.elements ++ Node.elementsOf rest

end

/-- The text inside an element, with all markup taken out. -/
def Element.textContent (e : Element) : String :=
  e.node.textContent

/-- The element and all elements inside, in the order of their tags. -/
def Element.descendants (e : Element) : List Element :=
  e.node.elements

end Markup

end PackageSymbols

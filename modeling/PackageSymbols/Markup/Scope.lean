import PackageSymbols.Markup.Tag

/-!
# Namespace Prefixes in Scope

A tag may bind prefixes to namespaces, and a binding holds for the element of
the tag and everything inside, until an inner one hides it. A `Scope` is the
list of bindings with the innermost first, so that looking a prefix up is
finding its first binding, and leaving an element is going back to the scope
that was there before it.

Two prefixes belong to the language itself and are bound from the start. They
cannot be bound to anything else, and no other prefix can be bound to their
namespaces; only the default namespace may.

An element name without a prefix is in the default namespace, an attribute name
without one is in no namespace. A binding to the empty text takes a binding
away.

## Main definitions

* `Binding`, `Scope`: A bound prefix, and all that are in scope.
* `Declaration.ofKey?`: The declaration that the key of an attribute makes.
* `Scope.declare`: The scope inside a tag.
* `Scope.elementName`, `Scope.attributeName`: The namespace and the local part
  of a name.
-/

namespace PackageSymbols

namespace Markup

/-- A prefix and the namespace it stands for. The empty prefix is the default namespace. -/
structure Binding where
  /-- The prefix. -/
  name : String
  /-- The namespace, empty to take an outer binding away. -/
  uri : String
deriving DecidableEq, Repr

/-- The bindings that hold at some place, the innermost first. -/
abbrev Scope := List Binding

/-- The namespace of the prefix `xml`. -/
def xmlUri : String := "http://www.w3.org/XML/1998/namespace"

/-- The namespace of the prefix `xmlns`. -/
def xmlnsUri : String := "http://www.w3.org/2000/xmlns/"

/-- What is in scope outside of all elements. -/
def Scope.initial : Scope :=
  [⟨"xml", xmlUri⟩, ⟨"xmlns", xmlnsUri⟩]

/-- What an attribute can declare. -/
inductive Declaration where
  /-- The default namespace. -/
  | unprefixed
  /-- The namespace of a prefix. -/
  | prefixed (name : String)
deriving DecidableEq, Repr

/-- The declaration that an attribute with the given key makes, if it makes one. -/
def Declaration.ofKey? (key : List Char) : Option Declaration :=
  match dropStart? ['x', 'm', 'l', 'n', 's'] key with
  | some [] => some .unprefixed
  | some (':' :: name) => some (.prefixed (String.ofList name))
  | _ => none

/-- The scope with one more declaration. -/
def Scope.declareOne (scope : Scope) (uri : String) : Declaration → Except Cause Scope
  | .unprefixed => .ok (⟨"", uri⟩ :: scope)
  | .prefixed name =>
      if name = "xml" then
        if uri = xmlUri then .ok scope else .error (.rebindsXml uri)
      else if name = "xmlns" then .error (.rebindsXmlns uri)
      else if uri = xmlUri ∨ uri = xmlnsUri then .error (.bindsReserved name uri)
      else .ok (⟨name, uri⟩ :: scope)

/-- The scope inside a tag with the given attributes. -/
def Scope.declare (scope : Scope) : List RawAttribute → Except Cause Scope
  | [] => .ok scope
  | a :: rest =>
      match Declaration.ofKey? a.key with
      | none => Scope.declare scope rest
      | some declaration => do
          let scope ← scope.declareOne (String.ofList a.value) declaration
          Scope.declare scope rest

/-- The namespace that a prefix is bound to. -/
def Scope.uri? (scope : Scope) (name : String) : Option String :=
  ((scope.find? fun b => b.name == name).map (·.uri)).filter (· != "")

/-- A name cut at its first colon: the prefix, if there is a colon, and the local part. -/
def splitName (name : List Char) : Option (List Char) × List Char :=
  match name.dropWhile (· != ':') with
  | [] => (none, name)
  | _ :: part => (some (name.takeWhile (· != ':')), part)

/-- The namespace of a prefix that is used in a name. The empty prefix has none. -/
def Scope.prefixUri (scope : Scope) (name : List Char) : Except Cause String :=
  match if name.isEmpty then none else scope.uri? (String.ofList name) with
  | some uri => .ok uri
  | none => .error (.undeclaredPrefix (String.ofList name))

/-- The namespace and the local part of an element name. -/
def Scope.elementName (scope : Scope) (name : List Char) :
    Except Cause (Option String × String) :=
  match splitName name with
  | (none, part) => .ok (scope.uri? "", String.ofList part)
  | (some p, part) => do
      let uri ← scope.prefixUri p
      return (some uri, String.ofList part)

/-- The namespace and the local part of an attribute name. -/
def Scope.attributeName (scope : Scope) (name : List Char) :
    Except Cause (Option String × String) :=
  match splitName name with
  | (none, part) => .ok (none, String.ofList part)
  | (some p, part) => do
      let uri ← scope.prefixUri p
      return (some uri, String.ofList part)

end Markup

end PackageSymbols

import PackageSymbols.Markup.Element
import PackageSymbols.Markup.Scope
import PackageSymbols.Proofs.Markup.Escaping
import PackageSymbols.Proofs.Markup.Tags

/-!
# Documents That Are Written

A document is described before it is written as a `Script`: texts and elements
one after the other, each element with its name as it is written, the namespaces
that it binds, its attributes, and a script of what is inside. `Script.chars` is
the text of a script, and `Script.nodes` says what the text means, given the
prefixes that are in scope. The meaning is told without positions, which
`Node.unplaced` takes out of a tree.

A row of nodes and not a node is what a script describes. The rest of the row is
part of every constructor, so a script is a list with a nested list at each
element, and all that is shown of scripts is shown by one plain induction.

## Main definitions

* `IsNamePart`: Names that have no character of meaning in them.
* `isPlainName`: Names of letters, digits and a few other characters, which are
  of that kind.
* `Label`, `Opening`: A name, and a tag, before they are written.
* `Script`: A row of nodes before it is written.
* `Script.chars`, `Script.nodes`: Its text and its meaning.
* `Script.WellFormed`: What a script must be for its text to have its meaning.
* `Node.unplaced`: A tree without positions.
-/

namespace PackageSymbols

namespace Markup

/-- Whether a character may stand in a plain name, unless it is the first. -/
def isNameChar (c : Char) : Bool :=
  c.isAlphanum || ['_', '-', '.'].contains c

/-- Whether a name begins with a letter and goes on with letters, digits, underscores, dashes and
    dots. -/
def isPlainName : List Char → Bool
  | [] => false
  | c :: cs => c.isAlpha && cs.all isNameChar

/-- Whether a name is read as it stands, behind a prefix, as a prefix, or alone. -/
structure IsNamePart (name : List Char) : Prop where
  /-- It can stand in a tag. -/
  isTagName : IsTagName name
  /-- No prefix ends in it. -/
  unqualified : ∀ c ∈ name, c ≠ ':'
  /-- It does not begin like other markup. -/
  start : ∀ c ∈ name.head?, c ≠ '!' ∧ c ≠ '?'

/-- A name before it is written, behind a prefix or not. -/
structure Label where
  /-- The prefix. -/
  qualifier : Option String
  /-- The name behind it. -/
  part : String
deriving DecidableEq, Repr

/-- The tag of an element before it is written. -/
structure Opening where
  /-- The name of the element. -/
  label : Label
  /-- The namespaces that it binds. -/
  bindings : List Binding
  /-- The attributes with their values. -/
  attributes : List (Label × String)
deriving DecidableEq, Repr

/-- A row of nodes before it is written. -/
inductive Script where
  /-- Nothing more. -/
  | done
  /-- A text. -/
  | text (content : String) (rest : Script)
  /-- An element with nothing inside, written as one tag. -/
  | empty (opening : Opening) (rest : Script)
  /-- An element, written as two tags around what is inside. -/
  | element (opening : Opening) (inner rest : Script)
deriving Repr

section Text

/-- The text of a name. -/
def Label.chars (l : Label) : List Char :=
  match l.qualifier with
  | none => l.part.toList
  | some q => q.toList ++ ':' :: l.part.toList

/-- The attribute that binds a namespace. -/
def Binding.pair (b : Binding) : Pair :=
  (if b.name = "" then "xmlns".toList else "xmlns:".toList ++ b.name.toList, b.uri.toList)

/-- An attribute as it stands in a tag. -/
def attributePair (a : Label × String) : Pair :=
  (a.1.chars, escape a.2.toList)

/-- All that stands in a tag behind the name. -/
def Opening.pairs (o : Opening) : List Pair :=
  o.bindings.map Binding.pair ++ o.attributes.map attributePair

/-- The text of a tag. -/
def Opening.chars (o : Opening) : List Char :=
  tagChars o.label.chars o.pairs

/-- The text of a row of nodes. -/
def Script.chars : Script → List Char
  | .done => []
  | .text content rest => escape content.toList ++ rest.chars
  | .empty o rest => '<' :: (o.chars ++ ['/'] ++ '>' :: rest.chars)
  | .element o inner rest =>
      '<' :: (o.chars ++ '>' ::
        (inner.chars ++ '<' :: ('/' :: o.label.chars ++ '>' :: rest.chars)))

end Text

section Meaning

/-- The scope inside of a tag. -/
def Opening.scope (o : Opening) (outer : Scope) : Scope :=
  o.bindings.reverse ++ outer

/-- What an attribute says where a scope holds. -/
def attributeIn (scope : Scope) (a : Label × String) : Attribute where
  uri := a.1.qualifier.bind scope.uri?
  name := a.1.part
  value := a.2

/-- What a tag says, without its position. -/
def Opening.head (o : Opening) (scope : Scope) : Head where
  uri := scope.uri? (o.label.qualifier.getD "")
  name := o.label.part
  attributes := o.attributes.map (attributeIn scope)
  position := default

/-- The nodes of a row where a scope holds, without positions. -/
def Script.nodes (scope : Scope) : Script → List Node
  | .done => []
  | .text content rest => .text content :: rest.nodes scope
  | .empty o rest => .element (o.head (o.scope scope)) [] :: rest.nodes scope
  | .element o inner rest =>
      .element (o.head (o.scope scope)) (inner.nodes (o.scope scope)) :: rest.nodes scope

mutual

/-- A node without positions. -/
def Node.unplaced : Node → Node
  | .text content => .text content
  | .element head content => .element { head with position := default } (Node.unplacedAll content)

/-- A row of nodes without positions. -/
def Node.unplacedAll : List Node → List Node
  | [] => []
  | node :: rest => node.unplaced :: Node.unplacedAll rest

end

/-- An element without positions. -/
def Element.unplaced (e : Element) : Element where
  head := { e.head with position := default }
  content := Node.unplacedAll e.content

end Meaning

section Form

/-- Whether the parts of a name are read as they stand. -/
structure Label.IsPlain (l : Label) : Prop where
  /-- The name is. -/
  part : IsNamePart l.part.toList
  /-- The prefix is, if there is one. -/
  qualifier : ∀ q ∈ l.qualifier, IsNamePart q.toList

/-- Whether a namespace may be bound and is read back. -/
structure Binding.IsLegal (b : Binding) : Prop where
  /-- The namespace does not end its quotes. -/
  uri : ∀ c ∈ b.uri.toList, c ≠ '"'
  /-- A prefix that is bound is read as it stands, and none of those that are not to be bound. -/
  name : b.name ≠ "" → IsNamePart b.name.toList ∧ b.name ≠ "xml" ∧ b.name ≠ "xmlns"
  /-- No prefix is bound to a namespace that is reserved. -/
  unreserved : b.name ≠ "" → b.uri ≠ xmlUri ∧ b.uri ≠ xmlnsUri

/-- Whether the name of an attribute can be read where a scope holds, and declares nothing. -/
structure Label.IsAttribute (scope : Scope) (l : Label) : Prop where
  /-- Its parts are read as they stand. -/
  plain : l.IsPlain
  /-- It is not the declaration of a default namespace. -/
  part : l.qualifier = none → l.part ≠ "xmlns"
  /-- It is not the declaration of a prefix. -/
  qualifier : l.qualifier ≠ some "xmlns"
  /-- Its prefix is bound. -/
  bound : ∀ q ∈ l.qualifier, (scope.uri? q).isSome

/-- Whether a tag is read back where a scope holds inside of it. -/
structure Opening.WellFormed (scope : Scope) (o : Opening) : Prop where
  /-- The parts of the name are read as they stand. -/
  label : o.label.IsPlain
  /-- Its prefix is bound. -/
  bound : ∀ q ∈ o.label.qualifier, (scope.uri? q).isSome
  /-- Namespaces that are bound may be bound. -/
  bindings : ∀ b ∈ o.bindings, b.IsLegal
  /-- Attributes have names of attributes. -/
  attributes : ∀ a ∈ o.attributes, a.1.IsAttribute scope
  /-- Nothing stands in it twice. -/
  distinct : (o.pairs.map Prod.fst).Nodup

/-- Whether a row of nodes begins with a text. -/
def Script.beginsWithText : Script → Bool
  | .text _ _ => true
  | _ => false

/-- Whether the text of a row of nodes has its meaning where a scope holds. No text is empty, and
    no two are adjacent, as they would be read as one. -/
def Script.WellFormed (scope : Scope) : Script → Prop
  | .done => True
  | .text content rest => content ≠ "" ∧ rest.beginsWithText = false ∧ rest.WellFormed scope
  | .empty o rest => o.WellFormed (o.scope scope) ∧ rest.WellFormed scope
  | .element o inner rest =>
      o.WellFormed (o.scope scope) ∧ inner.WellFormed (o.scope scope) ∧ rest.WellFormed scope

end Form

section Names

theorem isNameChar_of_isAlpha {c : Char} (h : c.isAlpha = true) : isNameChar c = true := by
  rw [isNameChar, Char.isAlphanum, h, Bool.true_or, Bool.true_or]

/-- A character of a plain name has no meaning in a tag, and does not end a prefix. -/
theorem inert_of_isNameChar {c : Char} (h : isNameChar c = true) :
    isInert c = true ∧ c ≠ ':' := by
  constructor
  · by_contra hc
    rw [isInert, Bool.and_eq_true, Bool.not_eq_true', not_and_or, Bool.not_eq_false,
      Bool.not_eq_true', Bool.not_eq_false] at hc
    simp only [isSeparator, Bool.or_eq_true, beq_iff_eq, List.contains_iff_mem, List.mem_cons,
      List.not_mem_nil, or_false] at hc
    -- Each of the characters with a meaning is neither a letter nor a digit nor one of the three.
    rcases hc with (((rfl | rfl) | rfl) | rfl) | rfl | rfl | rfl | rfl | rfl | rfl
    all_goals exact absurd h (by decide)
  · rintro rfl
    exact absurd h (by decide)

theorem isNameChar_of_isPlainName {name : List Char} (h : isPlainName name = true) :
    ∀ c ∈ name, isNameChar c = true := by
  rcases name with _ | ⟨c, cs⟩
  · exact fun _ hd => absurd hd List.not_mem_nil
  · rw [isPlainName, Bool.and_eq_true] at h
    intro d hd
    rcases List.mem_cons.mp hd with rfl | hd
    · exact isNameChar_of_isAlpha h.1
    · exact List.all_eq_true.mp h.2 d hd

/-- A plain name is read as it stands. -/
theorem isNamePart_of_isPlainName {name : List Char} (h : isPlainName name = true) :
    IsNamePart name := by
  have hinert : ∀ c ∈ name, isInert c = true ∧ c ≠ ':' :=
    fun c hc => inert_of_isNameChar (isNameChar_of_isPlainName h c hc)
  refine ⟨⟨?_, fun c hc => (hinert c hc).1⟩, fun c hc => (hinert c hc).2, ?_⟩
  · rintro rfl
    exact absurd h Bool.false_ne_true
  · rcases name with _ | ⟨c, cs⟩
    · exact absurd h Bool.false_ne_true
    · rw [isPlainName, Bool.and_eq_true] at h
      -- It begins with a letter, and other markup does not.
      intro d hd
      rw [← Option.some.inj hd]
      constructor
      · rintro rfl
        exact absurd h.1 (by decide)
      · rintro rfl
        exact absurd h.1 (by decide)

theorem IsTagName.qualified {q part : List Char} (hq : IsTagName q) (hpart : IsTagName part) :
    IsTagName (q ++ ':' :: part) := by
  refine ⟨fun he => hq.nonempty (List.append_eq_nil_iff.mp he).1, fun c hc => ?_⟩
  rw [List.mem_append, List.mem_cons] at hc
  rcases hc with hc | rfl | hc
  · exact hq.inert c hc
  · decide
  · exact hpart.inert c hc

theorem Label.IsPlain.isTagName {l : Label} (h : l.IsPlain) : IsTagName l.chars := by
  rcases l with ⟨_ | q, part⟩
  · exact h.part.isTagName
  · exact (h.qualifier q rfl).isTagName.qualified h.part.isTagName

theorem IsNamePart.ofStart {name : List Char} (h : IsNamePart name) (more : List Char) :
    Kind.ofStart (name ++ more) = some .tag := by
  rcases name with _ | ⟨c, cs⟩
  · exact absurd rfl h.isTagName.nonempty
  · exact ofStart_eq_tag (h.start c rfl).1 (h.start c rfl).2 _

/-- What follows the `<` of a tag is taken for a tag. -/
theorem Label.IsPlain.ofStart {l : Label} (h : l.IsPlain) (rest : List Char) :
    Kind.ofStart (l.chars ++ rest) = some .tag := by
  rcases l with ⟨_ | q, part⟩
  · exact h.part.ofStart rest
  · rw [Label.chars, List.append_assoc]
    exact (h.qualifier q rfl).ofStart _

theorem Binding.IsLegal.isWritable {b : Binding} (h : b.IsLegal) : IsWritable b.pair := by
  refine ⟨?_, h.uri⟩
  have hword : IsTagName "xmlns".toList := (isNamePart_of_isPlainName (by decide)).isTagName
  rw [Binding.pair]
  by_cases hname : b.name = ""
  · rw [if_pos hname]
    exact hword
  · rw [if_neg hname]
    exact hword.qualified (h.name hname).1.isTagName

theorem isWritable_attributePair {a : Label × String} (h : a.1.IsPlain) :
    IsWritable (attributePair a) :=
  ⟨h.isTagName, fun _ hc => (ne_of_mem_escape hc).2.2.1⟩

theorem Opening.WellFormed.isWritable {scope : Scope} {o : Opening} (h : o.WellFormed scope) :
    ∀ a ∈ o.pairs, IsWritable a := by
  intro a ha
  rw [Opening.pairs, List.mem_append] at ha
  rcases ha with ha | ha
  · rcases List.mem_map.mp ha with ⟨b, hb, rfl⟩
    exact (h.bindings b hb).isWritable
  · rcases List.mem_map.mp ha with ⟨b, hb, rfl⟩
    exact isWritable_attributePair (h.attributes b hb).plain

end Names

end Markup

end PackageSymbols

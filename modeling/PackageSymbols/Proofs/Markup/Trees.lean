import PackageSymbols.Proofs.Markup.RoundTrip
import PackageSymbols.Proofs.Markup.Vocabulary

/-!
# Trees Are Read Back

A tree can be written down without a word about the namespaces around it: each
element declares its own namespace as the default one, or that it is in none.
The text is then read as the same tree, wherever its elements stood, with any
characters in values and in texts. What cannot be told from the text is the
position of an element, and where one text ends and the next begins; so no two
texts are next to each other, and none is empty.

A tree is written by way of a script, one node in front of another. Since an
element hides all namespaces around it, the script of a row means the row where
any scope holds.

## Main definitions

* `Head.IsWritable`, `Node.IsWritable`, `Node.AreWritable`: Tags, nodes and rows
  that can be written.
* `Node.scriptBefore`, `Node.scriptOfAll`: A node and a row before they are
  written.
* `Element.written`: The text of a tree.

## Theorems

* `nodes_scriptOfAll`, `wellFormed_scriptOfAll`: The script of a row means the
  row, and is read back.
* `parseWith_written`, `parse_written`: A tree that is written is read back, up to
  positions, by any reader that keeps to the grammars.
-/

namespace PackageSymbols

namespace Markup

section Writing

/-- Whether the tag of an element can be written. -/
structure Head.IsWritable (head : Head) : Prop where
  /-- The name has no character of meaning in it. -/
  name : isPlainName head.name.toList = true
  /-- The namespace, if there is one, can stand in quotes. -/
  uri : ∀ uri ∈ head.uri, IsUri uri
  /-- The attributes have no namespace. -/
  unqualified : ∀ a ∈ head.attributes, a.uri = none
  /-- Their names can stand in one tag. -/
  attributes : Vocabulary.AreAttributes (head.attributes.map (·.name))

/-- Whether the node is a text. -/
def Node.isText : Node → Bool
  | .text _ => true
  | .element _ _ => false

mutual

/-- Whether a node can be written: no text in it is empty or next to another. -/
def Node.IsWritable : Node → Prop
  | .text content => content ≠ ""
  | .element head content => head.IsWritable ∧ Node.AreWritable content

/-- Whether a row of nodes can be written. -/
def Node.AreWritable : List Node → Prop
  | [] => True
  | node :: rest =>
      node.IsWritable ∧ (node.isText = true → ∀ next ∈ rest.head?, next.isText = false) ∧
        Node.AreWritable rest

end

/-- The tag of an element before it is written, with the namespace of the element as the default
    one. An empty declaration says that there is none. -/
def Head.opening (head : Head) : Opening :=
  { Vocabulary.absent.opening head.name (head.attributes.map fun a => (a.name, a.value)) with
    bindings := [⟨"", head.uri.getD ""⟩] }

mutual

/-- A node in front of others before they are written. With `asOne`, elements with nothing inside
    are written as one tag. -/
def Node.scriptBefore (asOne : Bool) : Node → (rest : Script) → Script
  | .text content, rest => .text content rest
  | .element head content, rest =>
      Script.around asOne head.opening (Node.scriptOfAll asOne content) rest

/-- A row of nodes before it is written. -/
def Node.scriptOfAll (asOne : Bool) : List Node → Script
  | [] => .done
  | node :: rest => node.scriptBefore asOne (Node.scriptOfAll asOne rest)

end

/-- The text of a tree. -/
def Element.written (asOne : Bool) (e : Element) : String :=
  String.ofList (Node.scriptOfAll asOne [e.node]).chars

end Writing

section Tags

variable {head : Head}

theorem uri?_default (uri : String) (scope : Scope) :
    Scope.uri? (⟨"", uri⟩ :: scope) "" = if uri = "" then none else some uri := by
  by_cases huri : uri = ""
  · rw [if_pos huri, huri]
    rfl
  · rw [if_neg huri]
    exact Vocabulary.uri?_cons (b := ⟨"", uri⟩) huri scope

/-- A tag says what it was written for, whatever scope there is around it. -/
theorem head_of_isWritable (h : head.IsWritable) (outer : Scope) :
    head.opening.head (head.opening.scope outer) = { head with position := default } := by
  have huri : (head.opening.scope outer).uri? "" = head.uri := by
    refine (uri?_default (head.uri.getD "") outer).trans ?_
    cases huri : head.uri with
    | none => rfl
    | some uri => exact if_neg (h.uri uri huri).1
  have hattributes : head.opening.attributes.map (attributeIn (head.opening.scope outer)) =
      head.attributes := by
    rw [Head.opening, Vocabulary.opening, List.map_map, List.map_map]
    refine (List.map_congr_left fun a ha => ?_).trans (List.map_id head.attributes)
    exact congrArg (fun uri => Attribute.mk uri a.name a.value) (h.unqualified a ha).symm
  rw [Opening.head, hattributes]
  exact congrArg (fun uri => Head.mk uri head.name head.attributes default) huri

theorem wellFormed_opening_of_isWritable (h : head.IsWritable) (scope : Scope) :
    head.opening.WellFormed scope := by
  have hbindable : Vocabulary.absent.IsBindable := trivial
  have hdistinct : ([⟨"", head.uri.getD ""⟩].map fun b : Binding => b.pair.1).Nodup :=
    List.nodup_singleton _
  refine Vocabulary.wellFormed_of_bindings hbindable ?_ ?_ hdistinct h.name ?_
  · exact fun _ hq => absurd hq (Option.not_mem_none _)
  · intro b hb
    rw [List.mem_singleton.mp hb]
    refine ⟨?_, fun hne => absurd rfl hne, fun hne => absurd rfl hne⟩
    cases huri : head.uri with
    | none => exact fun _ hc => absurd hc List.not_mem_nil
    | some uri => exact (h.uri uri huri).2
  · rw [List.map_map]
    exact h.attributes

end Tags

section Rows

variable (asOne : Bool)

mutual

theorem nodes_scriptBefore : ∀ node : Node, node.IsWritable → ∀ (rest : Script) (scope : Scope),
    (node.scriptBefore asOne rest).nodes scope = node.unplaced :: rest.nodes scope
  | .text content, _, rest, scope => rfl
  | .element head content, h, rest, scope => by
      rw [Node.scriptBefore, Script.nodes_around, head_of_isWritable h.1,
        nodes_scriptOfAll content h.2, Node.unplaced]

/-- The script of a row means the row, without positions. -/
theorem nodes_scriptOfAll : ∀ nodes : List Node, Node.AreWritable nodes → ∀ scope : Scope,
    (Node.scriptOfAll asOne nodes).nodes scope = Node.unplacedAll nodes
  | [], _, _ => rfl
  | node :: rest, h, scope => by
      rw [Node.scriptOfAll, nodes_scriptBefore node h.1, nodes_scriptOfAll rest h.2.2,
        Node.unplacedAll]

end

theorem beginsWithText_around (o : Opening) (inner rest : Script) :
    (Script.around asOne o inner rest).beginsWithText = false := by
  cases asOne <;> cases inner <;> rfl

theorem beginsWithText_scriptOfAll {nodes : List Node}
    (h : ∀ next ∈ nodes.head?, next.isText = false) :
    (Node.scriptOfAll asOne nodes).beginsWithText = false := by
  rcases nodes with _ | ⟨content | ⟨head, content⟩, rest⟩
  · rfl
  · exact absurd (h _ rfl) (by simp only [Node.isText, Bool.true_eq_false, not_false_eq_true])
  · rw [Node.scriptOfAll, Node.scriptBefore]
    exact beginsWithText_around asOne _ _ _

mutual

theorem wellFormed_scriptBefore : ∀ node : Node, node.IsWritable →
    ∀ {rest : Script} {scope : Scope}, rest.WellFormed scope →
      (node.isText = true → rest.beginsWithText = false) →
      (node.scriptBefore asOne rest).WellFormed scope
  | .text content, h, rest, scope, hrest, hnext => ⟨h, hnext rfl, hrest⟩
  | .element head content, h, rest, scope, hrest, _ => by
      rw [Node.scriptBefore]
      exact Script.wellFormed_around (wellFormed_opening_of_isWritable h.1 _)
        (wellFormed_scriptOfAll content h.2) hrest asOne

/-- The script of a row is read back. -/
theorem wellFormed_scriptOfAll : ∀ nodes : List Node, Node.AreWritable nodes → ∀ {scope : Scope},
    (Node.scriptOfAll asOne nodes).WellFormed scope
  | [], _, _ => trivial
  | node :: rest, h, scope => by
      rw [Node.scriptOfAll]
      exact wellFormed_scriptBefore node h.1 (wellFormed_scriptOfAll rest h.2.2)
        fun htext => beginsWithText_scriptOfAll asOne (h.2.1 htext)

end

end Rows

/-- A tree that is written is read back, up to positions, whoever reads the events. -/
theorem parseWith_written {read : EventReader} (hread : ReadsContent read) (asOne : Bool)
    {root : Element} (h : root.node.IsWritable) :
    (parseWith read (root.written asOne)).map Element.unplaced = .ok root.unplaced := by
  have hrow : Node.AreWritable [root.node] :=
    ⟨h, fun _ _ hnext => absurd hnext (Option.not_mem_none _), trivial⟩
  rcases parseWith_chars hread (wellFormed_scriptOfAll asOne _ hrow)
    (nodes_scriptOfAll asOne _ hrow Scope.initial) with ⟨e, hparse, he⟩
  rw [Element.written, hparse]
  exact congrArg Except.ok he

/-- A tree that is written is read back, up to positions. -/
theorem parse_written (asOne : Bool) {root : Element} (h : root.node.IsWritable) :
    (parse (root.written asOne)).map Element.unplaced = .ok root.unplaced :=
  parseWith_written readsContent_pieceReader asOne h

example : Element.written true ⟨⟨some "urn:a", "a", [⟨none, "b", "<"⟩], default⟩,
    [.text "&", .element ⟨none, "c", [], default⟩ []]⟩ =
      "<a xmlns=\"urn:a\" b=\"&lt;\">&amp;<c xmlns=\"\"/></a>" := by
  decide +kernel

/-- A tree with markup, quotes and line breaks in its values and texts, and an element in no
    namespace inside of one that is in a namespace. -/
def quotingTree : Element where
  head := ⟨some "urn:menus", "Menu", [⟨none, "x.1", "<\"'&\n"⟩, ⟨none, "xmlns-2", ""⟩], ⟨4, 2⟩⟩
  content := [.text "\r\n<&amp;", .element ⟨none, "Menu", [], ⟨5, 0⟩⟩ [.text "]]>"], .text " "]

/-- A tree with everything in it that could be taken for markup is read back. -/
theorem parse_written_quotingTree :
    quotingTree.node.IsWritable ∧
      (parse (quotingTree.written true)).map Element.unplaced = .ok quotingTree.unplaced := by
  have hroot : quotingTree.head.IsWritable := by
    refine ⟨by decide, ?_, by decide, ⟨by decide, by decide, by decide⟩⟩
    intro uri huri
    rw [← Option.some.inj huri]
    decide
  have hinner : Head.IsWritable ⟨none, "Menu", [], ⟨5, 0⟩⟩ :=
    ⟨by decide, fun _ huri => absurd huri (Option.not_mem_none _), by decide,
      ⟨by decide, by decide, by decide⟩⟩
  have htexts : "\r\n<&amp;" ≠ "" ∧ "]]>" ≠ "" ∧ " " ≠ "" := by decide
  have hlast : Node.AreWritable [.text " "] := ⟨htexts.2.2, by decide, trivial⟩
  have hchild : Node.AreWritable [.text "]]>"] := ⟨htexts.2.1, by decide, trivial⟩
  have hwritable : quotingTree.node.IsWritable :=
    ⟨hroot, htexts.1, by decide, ⟨hinner, hchild⟩, by decide, hlast⟩
  exact ⟨hwritable, parse_written true hwritable⟩

end Markup

end PackageSymbols

import PackageSymbols.Proofs.Markup.Positions
import PackageSymbols.Proofs.Markup.Trees

/-!
# Foreign Elements

A child is only found in the namespace of its parent. So a document of one
vocabulary can hold anything of other vocabularies next to its own elements, and
all that can be found in some content is told by the elements of the vocabulary
in it, in order. `Holds` says which these are. What else is there is left open:
texts, comments, and elements of other namespaces, under whatever names and with
whatever inside.

## Main definitions

* `Vocabulary.own`: The elements of a vocabulary in a row of nodes.
* `Vocabulary.Holds`: A text is content with certain elements of a vocabulary.
* `Vocabulary.IsForeign`: A text is content with no element of a vocabulary.
* `Opening.around`: An element around content and in front of other content.

## Theorems

* `Vocabulary.Holds.around`: An element behind foreign content is held first.
* `Vocabulary.isForeign_written`: Trees of other namespaces are foreign.
* `Vocabulary.firstNamed?_eq`: Children are found among the elements that are
  held.
* `Vocabulary.parseWith_around`: A root around content is read with its elements.
-/

namespace PackageSymbols

namespace Markup

section Writing

/-- An element around content and in front of other content. With `asOne` it is written as one tag
    if nothing is inside. -/
def Opening.around (asOne : Bool) (o : Opening) (inner rest : List Char) : List Char :=
  if asOne = true ∧ inner = [] then '<' :: (o.chars ++ ['/'] ++ '>' :: rest)
  else '<' :: (o.chars ++ '>' :: (inner ++ '<' :: ('/' :: o.label.chars ++ '>' :: rest)))

theorem Opening.endsText_around (asOne : Bool) (o : Opening) (inner rest : List Char) :
    EndsText (o.around asOne inner rest) := by
  rw [around]
  split
  · exact fun _ _ he => (List.cons.inj he).1.symm
  · exact fun _ _ he => (List.cons.inj he).1.symm

theorem Opening.dropMark_around (asOne : Bool) (o : Opening) (inner rest : List Char) :
    dropMark (o.around asOne inner rest) = o.around asOne inner rest := by
  have hmark : '<' ≠ byteOrderMark := by decide
  rw [around]
  split
  · rw [dropMark, if_neg hmark]
  · rw [dropMark, if_neg hmark]

theorem IsContent.eq_nil {scope : Scope} {nodes : List Node} (h : IsContent scope [] nodes) :
    nodes = [] := by
  have hmeans := h.2
  rw [pieces, Reading.done, List.map_nil] at hmeans
  cases hmeans
  rfl

/-- An element around content and in front of content is content. -/
theorem IsContent.around {scope : Scope} {o : Opening} (h : o.WellFormed (o.scope scope))
    (asOne : Bool) {inner rest : List Char} {content nodes : List Node}
    (hinner : IsContent (o.scope scope) inner content) (hrest : IsContent scope rest nodes) :
    IsContent scope (o.around asOne inner rest)
      (.element (o.head (o.scope scope)) content :: nodes) := by
  rw [Opening.around]
  split
  · next hempty =>
      -- With nothing inside, the content is an empty row.
      rw [hempty.2] at hinner
      rw [hinner.eq_nil]
      exact .empty h hrest
  · exact .element h hinner hrest

end Writing

namespace Vocabulary

variable (v : Vocabulary)

/-- The elements of a row that are in the namespace of the vocabulary. -/
def own (nodes : List Node) : List Element :=
  (nodes.filterMap Node.element?).filter fun e => e.head.uri == v.uri

/-- Whether a text can stand inside the root, and which elements of the vocabulary there are in
    it then. -/
def Holds (cs : List Char) (elements : List Element) : Prop :=
  ∃ nodes, IsContent v.scope cs nodes ∧ v.own nodes = elements

/-- Whether a text can stand inside the root, and has no element of the vocabulary in it. -/
def IsForeign (s : String) : Prop :=
  v.Holds s.toList []

variable {v}

theorem own_append (nodes more : List Node) :
    v.own (nodes ++ more) = v.own nodes ++ v.own more := by
  rw [own, List.filterMap_append, List.filter_append, own, own]

theorem own_element {head : Head} (h : head.uri = v.uri) (content nodes : List Node) :
    v.own (.element head content :: nodes) = ⟨head, content⟩ :: v.own nodes :=
  List.filter_cons_of_pos (beq_iff_eq.mpr h)

theorem isForeign_empty : v.IsForeign "" :=
  ⟨[], .nil, rfl⟩

theorem own_unplacedAll (nodes : List Node) :
    v.own (Node.unplacedAll nodes) = (v.own nodes).map Element.unplaced := by
  rw [own, Node.unplacedAll_eq_movedAll, Node.filterMap_movedAll, List.filter_map,
    funext Element.unplaced_eq_moved]
  rfl

/-- Trees that are written are foreign if none of them is an element of the vocabulary. -/
theorem isForeign_written (asOne : Bool) {nodes : List Node} (h : Node.AreWritable nodes)
    (hown : v.own nodes = []) :
    v.IsForeign (String.ofList (Node.scriptOfAll asOne nodes).chars) := by
  refine ⟨Node.unplacedAll nodes, ?_, ?_⟩
  · rw [String.toList_ofList, ← nodes_scriptOfAll asOne nodes h v.scope]
    exact isContent_chars _ (wellFormed_scriptOfAll asOne nodes h)
  · rw [own_unplacedAll, hown, List.map_nil]

/-- An element of the vocabulary behind foreign content is the first that is held. -/
theorem Holds.around (h : v.IsBindable) {gap : String} (hgap : v.IsForeign gap) {name : String}
    (hname : isPlainName name.toList = true) {attributes : List (String × String)}
    (hattributes : AreAttributes (attributes.map Prod.fst)) (asOne : Bool)
    {inner rest : List Char} {content : List Node} (hinner : IsContent v.scope inner content)
    {elements : List Element} (hrest : v.Holds rest elements) :
    v.Holds (gap.toList ++ (v.opening name attributes).around asOne inner rest)
      (⟨v.head name attributes, content⟩ :: elements) := by
  rcases hgap with ⟨foreign, hforeign, hnone⟩
  rcases hrest with ⟨nodes, hnodes, rfl⟩
  have helement : IsContent v.scope ((v.opening name attributes).around asOne inner rest)
      (.element ((v.opening name attributes).head v.scope) content :: nodes) :=
    .around (o := v.opening name attributes) (wellFormed_opening h hname hattributes) asOne hinner
      hnodes
  refine ⟨_, hforeign.append helement (Opening.endsText_around asOne _ inner rest), ?_⟩
  rw [own_append, hnone, List.nil_append, head_opening h]
  exact own_element rfl content nodes

/-- A child of an element of the vocabulary is found among the elements that are held. -/
theorem firstNamed?_eq {e : Element} (h : e.head.uri = v.uri) (name : String) :
    e.firstNamed? name = (v.own e.content).find? fun child => child.head.name == name := by
  rw [Element.firstNamed?, own, List.find?_filter]
  refine congrArg (List.find? · e.children) (funext fun child => ?_)
  rw [Element.answersTo, h, Bool.and_comm, Bool.decide_and, Bool.decide_eq_true,
    Bool.decide_eq_true]

/-- A root around content is read, and holds the elements of the content. -/
theorem parseWith_around {read : EventReader} (hread : ReadsContent read) (h : v.IsBindable)
    {name : String} (hname : isPlainName name.toList = true) {attributes : List (String × String)}
    (hattributes : AreAttributes (attributes.map Prod.fst)) (asOne : Bool) {inner : List Char}
    {elements : List Element} (hinner : v.Holds inner elements) :
    ∃ root, parseWith read (String.ofList ((v.rootOpening name attributes).around asOne inner [])) =
      .ok root ∧ root.unplaced.head = v.head name attributes ∧
        v.own root.unplaced.content = elements := by
  rcases hinner with ⟨nodes, hnodes, rfl⟩
  have hroot : IsContent Scope.initial ((v.rootOpening name attributes).around asOne inner [])
      [.element ((v.rootOpening name attributes).head v.scope) nodes] :=
    .around (o := v.rootOpening name attributes) (wellFormed_rootOpening h hname hattributes) asOne
      hnodes .nil
  rcases parseWith_of_isContent hread hroot (Opening.dropMark_around asOne _ inner []) with
    ⟨root, hparse, hunplaced⟩
  refine ⟨root, hparse, ?_, ?_⟩
  · rw [hunplaced]
    exact head_opening h name attributes
  · rw [hunplaced]

end Vocabulary

end Markup

end PackageSymbols

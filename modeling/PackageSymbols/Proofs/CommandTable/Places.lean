import PackageSymbols.Proofs.CommandTable.Extraction
import PackageSymbols.Proofs.Markup.Places

/-!
# Places of Symbols

A literal that cannot be read is reported at the tag of its element. The error has
only a position and no longer knows the element, but the literals of a document are
those of some of its elements, and where these begin in the text is known from
`Markup.Places`. So the position of an error is a place in the text, and what stands
there is the tag of the element whose literal is the first that cannot be read.

## Main definitions

* `Accuses`: An error is that of the literal of an element.

## Theorems

* `mem_descendants_of_mem_literals`: Literals are those of elements.
* `position_eq_behind_of_placesTags`, `position_eq_behind`: Elements are where their tags
  begin, and errors where the elements at fault are.
-/

namespace PackageSymbols

open Markup Text

namespace Markup

mutual

/-- The elements of a node are the same without the tags around them. -/
theorem Node.map_placed (around : List Head) :
    ∀ node : Node, (node.placed around).map (·.2) = node.elements
  | .text _ => by rw [Node.placed, Node.elements, List.map_nil]
  | .element head content => by
      rw [Node.placed, Node.elements, List.map_cons, Node.map_placedAll (around ++ [head]) content]

theorem Node.map_placedAll (around : List Head) :
    ∀ nodes : List Node, (Node.placedAll around nodes).map (·.2) = Node.elementsOf nodes
  | [] => by rw [Node.placedAll, Node.elementsOf, List.map_nil]
  | node :: rest => by
      rw [Node.placedAll, Node.elementsOf, List.map_append, Node.map_placed around node,
        Node.map_placedAll around rest]

end

end Markup

namespace CommandTable

/-- Whether an error is that of the literal of an element, the literals before it in the document
    being such that they can be read. -/
def Accuses (root : Element) (error : Error) (kind : Kind) (e : Element) : Prop :=
  ∃ earlier later, literals root = earlier ++ .ofElement kind e :: later ∧
    (∀ l ∈ earlier, ∃ symbol, l.read = .ok symbol) ∧
    (Literal.ofElement kind e).read = .error error

/-- A literal is that of an element of the document. -/
theorem mem_descendants_of_mem_literals {root : Element} {l : Literal} (h : l ∈ literals root) :
    ∃ kind, ∃ e ∈ root.descendants, l = .ofElement kind e := by
  rcases List.mem_filterMap.mp h with ⟨place, hplace, hliteral⟩
  have hmem : place.2 ∈ root.descendants := by
    rw [Element.descendants, ← Node.map_placed []]
    exact List.mem_map_of_mem hplace
  simp only [literal?] at hliteral
  split at hliteral
  · split at hliteral
    · exact ⟨.guid, place.2, hmem, (Option.some.inj hliteral).symm⟩
    · split at hliteral
      · exact ⟨.id, place.2, hmem, (Option.some.inj hliteral).symm⟩
      · cases hliteral
  · cases hliteral

theorem position_of_read {l : Literal} {error : Error} (h : l.read = .error error) :
    error.position = l.position := by
  rcases l with ⟨kind, name, text, position⟩
  cases kind with
  | guid =>
      simp only [Literal.read] at h
      split at h
      · cases h
      · cases h
        rfl
  | id =>
      simp only [Literal.read] at h
      split at h
      · cases h
      · cases h
        rfl

/-- The error for a root is that of the literal of an element. -/
theorem exists_accuses_of_ofRoot {name : String} {root : Element} {error : Error}
    (h : ofRoot name root = .error error) :
    ∃ kind, ∃ e ∈ root.descendants, Accuses root error kind e ∧
      error.position = e.head.position := by
  -- The reader goes through the row of literals, and the first that fails is one of the row.
  rcases (eq_error_iff_of_map (map_ofRoot name root)).mp h with
    ⟨earlier, bad, later, hliterals, hearlier, hbad⟩
  have hmem : bad ∈ literals root := hliterals ▸ List.mem_append_right _ List.mem_cons_self
  rcases mem_descendants_of_mem_literals hmem with ⟨kind, e, he, rfl⟩
  exact ⟨kind, e, he, ⟨earlier, later, hliterals, hearlier, hbad⟩, position_of_read hbad⟩

/-- With any reader that tells where tags are, positions are exact: the elements of a document, in
    their order, are where the tags begin that open them, there are no other such tags, and the
    error for a literal is where the tag of its own element begins. -/
theorem position_eq_behind_of_placesTags {read : EventReader} (hread : PlacesTags read)
    {text : String} {root : Element} (hmark : text.toList.head? ≠ some byteOrderMark)
    (hsize : utf8Length text.toList < UInt32.size)
    (hroot : Markup.parseWith read text = .ok root) :
    (∀ number before, IsBeforeTag text.toList number before →
      ∃ e, root.descendants[number]? = some e ∧ e.head.position = Position.behind before) ∧
    (∀ number e, root.descendants[number]? = some e →
      ∃ before, IsBeforeTag text.toList number before ∧
        e.head.position = Position.behind before) ∧
    (root.descendants.map (·.head.position)).Pairwise Position.IsBefore ∧
    ∀ name error, ofRoot name root = .error error →
      ∃ kind e number before, Accuses root error kind e ∧
        root.descendants[number]? = some e ∧ IsBeforeTag text.toList number before ∧
        error.position = Position.behind before := by
  refine ⟨fun number before => exists_getElem?_descendants hread hmark hsize hroot,
    fun number e => exists_isBeforeTag hread hmark hsize hroot,
    pairwise_positions hread hmark hsize hroot, ?_⟩
  intro name error herror
  rcases exists_accuses_of_ofRoot herror with ⟨kind, e, he, haccuses, hposition⟩
  rcases List.mem_iff_getElem?.mp he with ⟨number, hnumber⟩
  rcases exists_isBeforeTag hread hmark hsize hroot hnumber with ⟨before, hbefore, hbehind⟩
  exact ⟨kind, e, number, before, haccuses, hnumber, hbefore, hposition.trans hbehind⟩

/-- Positions are exact. The elements of a document, in their order, are where the tags begin that
    open them, told by the line feeds and the bytes before; there are no other such tags, and the
    positions are in order. If a literal cannot be read the error is where the tag of its own
    element begins. -/
theorem position_eq_behind {text : String} {root : Element}
    (hmark : text.toList.head? ≠ some byteOrderMark) (hsize : utf8Length text.toList < UInt32.size)
    (hroot : Markup.parse text = .ok root) :
    (∀ number before, IsBeforeTag text.toList number before →
      ∃ e, root.descendants[number]? = some e ∧ e.head.position = Position.behind before) ∧
    (∀ number e, root.descendants[number]? = some e →
      ∃ before, IsBeforeTag text.toList number before ∧
        e.head.position = Position.behind before) ∧
    (root.descendants.map (·.head.position)).Pairwise Position.IsBefore ∧
    ∀ name error, parse name text = .error error →
      ∃ kind e number before, Accuses root error kind e ∧
        root.descendants[number]? = some e ∧ IsBeforeTag text.toList number before ∧
        error.position = Position.behind before := by
  rcases position_eq_behind_of_placesTags placesTags_pieceReader hmark hsize hroot with
    ⟨htags, helements, hpositions, herrors⟩
  refine ⟨htags, helements, hpositions, fun name error herror => ?_⟩
  -- The root was read, so the error is one for its literals.
  rw [parse, hroot] at herror
  exact herrors name error herror

/-- A document in which a comment, a value in quotes and character data hold what looks like tags,
    and in which a letter of two bytes comes before a tag. -/
def crowded : String :=
  "<!-- <e> -->\n<CommandTable a='>'><![CDATA[<e>]]>\n é<Symbols><GuidSymbol value='0'/>" ++
    "</Symbols>\n</CommandTable>"

/-- The root of that document. -/
def crowdedRoot : Element where
  head := ⟨none, "CommandTable", [⟨none, "a", ">"⟩], ⟨1, 0⟩⟩
  content :=
    [.text "<e>", .text "\n é",
      .element ⟨none, "Symbols", [], ⟨2, 3⟩⟩
        [.element ⟨none, "GuidSymbol", [⟨none, "value", "0"⟩], ⟨2, 12⟩⟩ []],
      .text "\n"]

/-- The third tag of the document that opens an element is that of the symbol, and the error for
    its literal is there. -/
theorem position_eq_behind_crowded :
    crowded.toList.head? ≠ some byteOrderMark ∧ utf8Length crowded.toList < UInt32.size ∧
      Markup.parse crowded = .ok crowdedRoot ∧
      (∃ before, IsBeforeTag crowded.toList 2 before ∧ Position.behind before = ⟨2, 12⟩) ∧
      ∃ kind e number before, Accuses crowdedRoot (.guid "" ⟨2, 12⟩ ⟨"0"⟩) kind e ∧
        crowdedRoot.descendants[number]? = some e ∧ IsBeforeTag crowded.toList number before ∧
        Position.behind before = ⟨2, 12⟩ := by
  have hmark : crowded.toList.head? ≠ some byteOrderMark := by decide
  have hsize : utf8Length crowded.toList < UInt32.size := by decide
  have hroot : Markup.parse crowded = .ok crowdedRoot :=
    parse_eq_of_map_events (by decide +kernel)
  have herror : parse "menus" crowded = .error (.guid "" ⟨2, 12⟩ ⟨"0"⟩) := by
    rw [parse, hroot]
    decide
  have hplaces := position_eq_behind hmark hsize hroot
  refine ⟨hmark, hsize, hroot, ?_, ?_⟩
  · rcases hplaces.2.1 2 _ rfl with ⟨before, hbefore, hposition⟩
    exact ⟨before, hbefore, hposition.symm⟩
  · rcases hplaces.2.2.2 "menus" _ herror with
      ⟨kind, e, number, before, haccuses, hnumber, hbefore, hposition⟩
    exact ⟨kind, e, number, before, haccuses, hnumber, hbefore, hposition.symm⟩

end CommandTable

end PackageSymbols

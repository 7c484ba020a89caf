import PackageSymbols.CommandTable
import PackageSymbols.Proofs.FirstFailure
import PackageSymbols.Proofs.Literals
import PackageSymbols.Proofs.Markup.Positions
import PackageSymbols.Proofs.Markup.RoundTrip
import PackageSymbols.Proofs.Markup.Vocabulary

/-!
# Command Tables Are Read Back

A command table that is written as a document is read back as it was, whatever
its symbols are called, however they are spread over sections, and whichever way
the elements come to their namespace.

The document is written as a script, so the tree it is read as is known up to
positions. What is read from a tree moves with it (`ofRoot_moved`), and a table has
no positions in it that could move; what is left is to read the symbols from a tree
that holds them one by one.

## Main definitions

* `Error.moved`: An error elsewhere.
* `render`: The text of a table, its symbols in sections.
* `parseWith`: The reader of tables on top of a given reader of events.

## Theorems

* `ofRoot_moved`, `ofRoot_of_unplaced`: What is read does not depend on positions,
  and errors move with them.
* `parseWith_render`, `parse_render`: A table that is written is read back, by any
  reader of events that keeps to the grammars of content.
-/

namespace PackageSymbols

open Markup

namespace CommandTable

section Positions

/-- An error elsewhere. -/
def Error.moved (f : Text.Position → Text.Position) : Error → Error
  | .markup error => .markup { error with position := f error.position }
  | .guid name position invalid => .guid name (f position) invalid
  | .id name position invalid => .id name (f position) invalid

variable (f : Text.Position → Text.Position)

theorem Error.position_moved (error : Error) : (error.moved f).position = f error.position := by
  cases error with
  | markup error => rfl
  | guid name position invalid => rfl
  | id name position invalid => rfl

theorem readId_moved (e : Element) : readId (e.moved f) = (readId e).mapError (Error.moved f) := by
  have hvalue : (e.moved f).valueOf "value" = e.valueOf "value" := rfl
  rw [readId, readId, hvalue]
  cases CommandId.parse (e.valueOf "value") with
  | error invalid => rfl
  | ok value => rfl

theorem readGuid_moved (e : Element) :
    readGuid (e.moved f) = (readGuid e).mapError (Error.moved f) := by
  have hvalue : (e.moved f).valueOf "value" = e.valueOf "value" := rfl
  rw [readGuid, readGuid, hvalue]
  cases Guid.parse (e.valueOf "value") with
  | error invalid => rfl
  | ok value =>
      simp only [Element.allNamed_moved, mapM_mapError (readId_moved f)]
      cases (e.allNamed "IDSymbol").mapM readId with
      | error error => rfl
      | ok ids => rfl

theorem guidElements_moved (root : Element) :
    guidElements (root.moved f) = (guidElements root).map (Element.moved f) := by
  have hname : (root.moved f).head.name = root.head.name := rfl
  rw [guidElements, guidElements, hname]
  split
  · rw [Element.allNamed_moved, List.flatMap_map, List.map_flatMap]
    simp only [Element.allNamed_moved]
  · rfl

/-- What is read from a tree moves with it. -/
theorem ofRoot_moved (name : String) (root : Element) :
    ofRoot name (root.moved f) = (ofRoot name root).mapError (Error.moved f) := by
  rw [ofRoot, ofRoot, guidElements_moved, mapM_mapError (readGuid_moved f)]
  cases (guidElements root).mapM readGuid with
  | error error => rfl
  | ok guids => rfl

/-- What is read from a tree is read from it at any positions. -/
theorem ofRoot_of_unplaced {name : String} {root : Element} {table : CommandTable}
    (h : ofRoot name root.unplaced = .ok table) : ofRoot name root = .ok table := by
  rw [Element.unplaced_eq_moved, ofRoot_moved] at h
  cases hread : ofRoot name root with
  | error error =>
      rw [hread] at h
      cases h
  | ok found =>
      rw [hread] at h
      exact h

/-- A table has the name that it is read for. -/
theorem name_of_ofRoot {name : String} {root : Element} {table : CommandTable}
    (h : ofRoot name root = .ok table) : table.name = name := by
  rw [ofRoot] at h
  cases hguids : (guidElements root).mapM readGuid with
  | error error =>
      simp only [hguids] at h
      cases h
  | ok guids =>
      simp only [hguids] at h
      cases h
      rfl

end Positions

section Writing

variable (v : Vocabulary) (asOne : Bool)

/-- What the attributes of an identifier say. -/
def idAttributes (id : IdSymbol) : List (String × String) :=
  [("name", id.name), ("value", id.value.hex)]

/-- What the attributes of a GUID say. -/
def guidAttributes (guid : GuidSymbol) : List (String × String) :=
  [("name", guid.name), ("value", "\x7b" ++ guid.value.hyphenated ++ "\x7d")]

/-- The elements of identifiers. -/
def idScript (ids : List IdSymbol) : Script :=
  v.row asOne "IDSymbol" idAttributes (fun _ => .done) ids

/-- The elements of GUIDs. -/
def guidScript (guids : List GuidSymbol) : Script :=
  v.row asOne "GuidSymbol" guidAttributes (fun guid => idScript v asOne guid.ids) guids

/-- The sections of a table. -/
def sectionScript (sections : List (List GuidSymbol)) : Script :=
  v.row asOne "Symbols" (fun _ => []) (guidScript v asOne) sections

/-- The document of a table. -/
def tableScript (sections : List (List GuidSymbol)) : Script :=
  Script.around asOne (v.rootOpening "CommandTable" []) (sectionScript v asOne sections) .done

/-- The text of the document of a table whose symbols are spread over sections. With `asOne`,
    elements with nothing inside are written as one tag. -/
def render (sections : List (List GuidSymbol)) : String :=
  String.ofList (tableScript v asOne sections).chars

/-- The element of an identifier. -/
def idElement (id : IdSymbol) : Element where
  head := v.head "IDSymbol" (idAttributes id)
  content := []

/-- The element of a GUID. -/
def guidElement (guid : GuidSymbol) : Element where
  head := v.head "GuidSymbol" (guidAttributes guid)
  content := guid.ids.map fun id => (idElement v id).node

/-- The element of a section. -/
def sectionElement (guids : List GuidSymbol) : Element where
  head := v.head "Symbols" []
  content := guids.map fun guid => (guidElement v guid).node

/-- The root of a table. -/
def tableElement (sections : List (List GuidSymbol)) : Element where
  head := v.head "CommandTable" []
  content := sections.map fun guids => (sectionElement v guids).node

end Writing

section Meaning

variable {v : Vocabulary} (h : v.IsBindable) (asOne : Bool)

include h

theorem nodes_idScript (ids : List IdSymbol) :
    (idScript v asOne ids).nodes v.scope = ids.map fun id => (idElement v id).node :=
  Vocabulary.nodes_row h asOne (fun _ => rfl) ids

theorem nodes_guidScript (guids : List GuidSymbol) :
    (guidScript v asOne guids).nodes v.scope =
      guids.map fun guid => (guidElement v guid).node := by
  have hids : ∀ guid : GuidSymbol, (idScript v asOne guid.ids).nodes v.scope =
      guid.ids.map fun id => (idElement v id).node := fun guid => nodes_idScript h asOne guid.ids
  exact Vocabulary.nodes_row h asOne hids guids

theorem nodes_sectionScript (sections : List (List GuidSymbol)) :
    (sectionScript v asOne sections).nodes v.scope =
      sections.map fun guids => (sectionElement v guids).node :=
  Vocabulary.nodes_row h asOne (nodes_guidScript h asOne) sections

theorem nodes_tableScript (sections : List (List GuidSymbol)) :
    (tableScript v asOne sections).nodes Scope.initial = [(tableElement v sections).node] := by
  have hscope : (v.rootOpening "CommandTable" []).scope Scope.initial = v.scope := rfl
  have hhead : (v.rootOpening "CommandTable" []).head v.scope = v.head "CommandTable" [] :=
    Vocabulary.head_opening h "CommandTable" []
  rw [tableScript, Script.nodes_around, hscope, hhead, nodes_sectionScript h asOne]
  rfl

omit h in
theorem areAttributes_symbol : Vocabulary.AreAttributes ["name", "value"] :=
  ⟨by decide, by decide, by decide⟩

theorem wellFormed_tableScript (sections : List (List GuidSymbol)) :
    (tableScript v asOne sections).WellFormed Scope.initial := by
  -- From the inside out: each row is read back if the rows inside of it are.
  have hids : ∀ ids, (idScript v asOne ids).WellFormed v.scope :=
    Vocabulary.wellFormed_row h asOne (by decide) (fun _ => areAttributes_symbol) fun _ => trivial
  have hguids : ∀ guids, (guidScript v asOne guids).WellFormed v.scope :=
    Vocabulary.wellFormed_row h asOne (by decide) (fun _ => areAttributes_symbol)
      fun guid => hids guid.ids
  have hnone : ∀ _ : List GuidSymbol,
      Vocabulary.AreAttributes (([] : List (String × String)).map Prod.fst) :=
    fun _ => Vocabulary.areAttributes_nil
  have hsections : (sectionScript v asOne sections).WellFormed v.scope :=
    Vocabulary.wellFormed_row h asOne (by decide) hnone hguids sections
  have hroot : Opening.WellFormed ((v.rootOpening "CommandTable" []).scope Scope.initial)
      (v.rootOpening "CommandTable" []) :=
    Vocabulary.wellFormed_rootOpening h (by decide) Vocabulary.areAttributes_nil
  have hdone : Script.WellFormed Scope.initial .done := trivial
  exact Script.wellFormed_around hroot hsections hdone asOne

end Meaning

section Reading

variable (v : Vocabulary)

/-- The children of an element that is made of elements of one name. -/
theorem allNamed_map {α : Type} {head : Head} {name : String} (element : α → Element)
    {as : List α} (h : ∀ a ∈ as, (element a).head.name = name ∧ (element a).head.uri = head.uri) :
    Element.allNamed { head := head, content := as.map fun a => (element a).node } name =
      as.map element := by
  have hchildren : (as.map fun a => (element a).node).filterMap Node.element? =
      as.map element := by
    rw [List.filterMap_map]
    exact congrFun List.filterMap_eq_map' as
  rw [Element.allNamed, Element.children, hchildren, List.filter_eq_self]
  intro e he
  rcases List.mem_map.mp he with ⟨a, ha, rfl⟩
  -- Every child has the name, and the namespace of its parent.
  rw [Element.answersTo, (h a ha).1, (h a ha).2, beq_self_eq_true, beq_self_eq_true]
  rfl

theorem mapM_map_ok {α β ε : Type} {f : α → Except ε β} {g : β → α} (h : ∀ b, f (g b) = .ok b)
    (bs : List β) : (bs.map g).mapM f = .ok bs := by
  induction bs with
  | nil => rfl
  | cons b bs ih =>
      rw [List.map_cons, List.mapM_cons, h b, ih]
      rfl

theorem readId_idElement (id : IdSymbol) : readId (idElement v id) = .ok id := by
  have hname : (idElement v id).valueOf "name" = id.name := rfl
  have hvalue : (idElement v id).valueOf "value" = id.value.hex := rfl
  rw [readId, hvalue, CommandId.parse_hex, hname]

theorem readGuid_guidElement (guid : GuidSymbol) : readGuid (guidElement v guid) = .ok guid := by
  have hname : (guidElement v guid).valueOf "name" = guid.name := rfl
  have hvalue : (guidElement v guid).valueOf "value" =
      "\x7b" ++ guid.value.hyphenated ++ "\x7d" := rfl
  have hids : (guidElement v guid).allNamed "IDSymbol" = guid.ids.map (idElement v) :=
    allNamed_map (idElement v) fun _ _ => ⟨rfl, rfl⟩
  rw [readGuid, hvalue, Guid.parse_braced, hname, hids]
  simp only [mapM_map_ok (readId_idElement v)]
  rfl

theorem guidElements_tableElement (sections : List (List GuidSymbol)) :
    guidElements (tableElement v sections) = sections.flatten.map (guidElement v) := by
  have hsections : (tableElement v sections).allNamed "Symbols" =
      sections.map (sectionElement v) :=
    allNamed_map (sectionElement v) fun _ _ => ⟨rfl, rfl⟩
  have hguids : ∀ guids, (sectionElement v guids).allNamed "GuidSymbol" =
      guids.map (guidElement v) := fun _ =>
    allNamed_map (guidElement v) fun _ _ => ⟨rfl, rfl⟩
  have hname : (tableElement v sections).head.name = "CommandTable" := rfl
  rw [guidElements, if_pos hname, hsections, List.flatMap_map, List.map_flatten]
  simp only [hguids]
  rfl

end Reading

/-- Reads a command table of the given name from its document, the events of which are read by a
    given reader. -/
def parseWith (read : EventReader) (name : String) (text : String) : Except Error CommandTable :=
  match Markup.parseWith read text with
  | .ok root => ofRoot name root
  | .error error => .error (.markup error)

/-- The document of a table that is written has a root, and the symbols are read from it. -/
theorem exists_root_render {read : EventReader} (hread : ReadsContent read) (name : String)
    {v : Vocabulary} (h : v.IsLegal) (asOne : Bool) (sections : List (List GuidSymbol)) :
    ∃ root, Markup.parseWith read (render v asOne sections) = .ok root ∧
      ofRoot name root = .ok { name := name, guids := sections.flatten } := by
  rcases parseWith_chars hread (wellFormed_tableScript h.isBindable asOne sections)
    (nodes_tableScript h.isBindable asOne sections) with ⟨root, hparse, hroot⟩
  have htable : ofRoot name root.unplaced = .ok { name := name, guids := sections.flatten } := by
    -- Up to positions the root is the element that was written.
    have helement : root.unplaced = tableElement v sections := hroot
    rw [helement, ofRoot, guidElements_tableElement]
    simp only [mapM_map_ok (readGuid_guidElement v)]
    rfl
  rw [render, hparse]
  exact ⟨root, rfl, ofRoot_of_unplaced htable⟩

/-- A table that is written is read back, under the name that it is read for, however its symbols
    are spread over sections and whoever reads the events. -/
theorem parseWith_render {read : EventReader} (hread : ReadsContent read) (name : String)
    {v : Vocabulary} (h : v.IsLegal) (asOne : Bool) (sections : List (List GuidSymbol)) :
    parseWith read name (render v asOne sections) =
      .ok { name := name, guids := sections.flatten } := by
  rcases exists_root_render hread name h asOne sections with ⟨root, hroot, htable⟩
  rw [parseWith, hroot]
  exact htable

/-- A table that is written is read back, under the name that it is read for, however its symbols
    are spread over sections. -/
theorem parse_render (name : String) {v : Vocabulary} (h : v.IsLegal) (asOne : Bool)
    (sections : List (List GuidSymbol)) :
    parse name (render v asOne sections) = .ok { name := name, guids := sections.flatten } :=
  parseWith_render readsContent_pieceReader name h asOne sections

/-- A table with markup, quotes and line breaks in its names is read back behind a prefix. -/
theorem parse_render_markup :
    (Vocabulary.prefixed "vs" "urn:symbols").IsLegal ∧
      parse "Menus" (render (.prefixed "vs" "urn:symbols") true
        [[⟨"guid<\"a\">", ⟨1⟩, [⟨"b & 'c'\n", -1⟩]⟩], [], [⟨"", ⟨2⟩, []⟩]]) =
        .ok ⟨"Menus", [⟨"guid<\"a\">", ⟨1⟩, [⟨"b & 'c'\n", -1⟩]⟩, ⟨"", ⟨2⟩, []⟩]⟩ := by
  have hlegal : (Vocabulary.prefixed "vs" "urn:symbols").IsLegal := by decide
  exact ⟨hlegal, parse_render "Menus" hlegal true _⟩

example : render (.unprefixed "urn:symbols") true [[⟨"a&b", ⟨10⟩, [⟨"c", 256⟩]⟩]] =
    "<CommandTable xmlns=\"urn:symbols\"><Symbols>" ++
      "<GuidSymbol name=\"a&amp;b\" value=\"\x7b00000000-0000-0000-0000-00000000000a\x7d\">" ++
      "<IDSymbol name=\"c\" value=\"0x0100\"/></GuidSymbol></Symbols></CommandTable>" := by
  decide +kernel

end CommandTable

end PackageSymbols

import PackageSymbols.Proofs.Classes.Nested
import PackageSymbols.Proofs.Source.Emission

/-!
# Emission Loses Nothing

Everything that was resolved for a scope can be read back from its files, and
nothing else can. The names of all classes and constants were made by
`Identifier.ofName`, which keeps them in their place. This comes from the merge,
whose constants have the keys of their declarations for names, and from the
groups of tables, whose keys are identifiers as well.

## Main definitions

* `TableClass.items`, `FlatClasses.guidItems`, `FlatClasses.idItems`: What the
  resolved classes declare.
* `TableClass.IsNamed`: A class whose names are identifiers.

## Theorems

* `isNamed_of_mem_ofTables`: Resolved classes have identifiers for names.
* `files_convey`: The files of both layouts convey exactly what was resolved.
-/

namespace PackageSymbols

open Identifier Source

/-- What the class of a GUID declares inside the class of a table. -/
def GuidClass.items (c : GuidClass) : List (Nat × Item) :=
  (2, .opened c.guid.name) :: (3, .guidText "GuidString" c.guid.value) ::
    (3, .guidField "Guid" "GuidString") :: c.ids.map fun id => (3, .id id.name id.value)

/-- What the class of a table declares. -/
def TableClass.items (c : TableClass) : List (Nat × Item) :=
  (1, .opened c.name) :: c.guids.flatMap GuidClass.items

/-- What the class of the GUIDs of a flat layout declares. -/
def FlatClasses.guidItems (classes : FlatClasses) : List (Nat × Item) :=
  (1, .opened "PackageGuids") :: classes.guids.flatMap fun guid =>
    [(2, .guidText (guid.name ++ "String") guid.value),
     (2, .guidField guid.name (guid.name ++ "String"))]

/-- What the class of the identifiers of a flat layout declares. -/
def FlatClasses.idItems (classes : FlatClasses) : List (Nat × Item) :=
  (1, .opened "PackageIds") :: classes.ids.map fun id => (2, .id id.name id.value)

/-- How many lines the file of the class of a table has behind the preamble. -/
def TableClass.lineCount (c : TableClass) : Nat :=
  7 + (c.guids.map fun g => 6 + g.ids.length).sum

section Names

/-- The names that are the same in all files are identifiers. -/
theorem isName_of_mem_fixed : ∀ name ∈ ["GuidString", "Guid", "String", "PackageGuids",
    "PackageIds"], IsName name.toList := by
  decide +kernel

/-- Whether the names of the class of a GUID are identifiers. -/
structure GuidClass.IsNamed (c : GuidClass) : Prop where
  /-- The name of the GUID is. -/
  guid : IsName c.guid.name.toList
  /-- The names of the identifiers under it are. -/
  ids : ∀ id ∈ c.ids, IsName id.name.toList

/-- Whether the names of the class of a table are identifiers. -/
structure TableClass.IsNamed (c : TableClass) : Prop where
  /-- Its own name is. -/
  name : IsName c.name.toList
  /-- The names of the classes inside are. -/
  guids : ∀ g ∈ c.guids, g.IsNamed

/-- The names of what is merged are identifiers if the keys are. -/
theorem isName_of_mem_merge {α : Type} [DecidableEq α] {ds : List (Declaration α)}
    (h : ∀ d ∈ ds, ∃ name, d.key = ofName name) :
    ∀ c ∈ (merge ds).constants, IsName c.name.toList := by
  intro c hc
  -- The name of a constant is the key of one of the declarations.
  rcases exists_declaration_of_mem ds hc with ⟨d, hd, hkey, _⟩
  rcases h d hd with ⟨name, hname⟩
  rw [← hkey, hname]
  exact isName_ofName name

theorem isName_of_mem_guidsOf (tables : List LocatedTable) :
    ∀ c ∈ (guidsOf tables).constants, IsName c.name.toList := by
  refine isName_of_mem_merge fun d hd => ?_
  rcases List.mem_flatMap.mp hd with ⟨t, _, hd⟩
  rcases List.mem_map.mp hd with ⟨guid, _, rfl⟩
  exact ⟨stripMarker guid.name, rfl⟩

theorem isName_of_mem_idsOf (tables : List LocatedTable) :
    ∀ c ∈ (idsOf tables).constants, IsName c.name.toList := by
  refine isName_of_mem_merge fun d hd => ?_
  rcases List.mem_flatMap.mp hd with ⟨t, _, hd⟩
  rcases List.mem_map.mp hd with ⟨id, _, rfl⟩
  exact ⟨id.name, rfl⟩

theorem isName_of_mem_idsUnder (guids : List LocatedGuid) :
    ∀ c ∈ (idsUnder guids).constants, IsName c.name.toList := by
  refine isName_of_mem_merge fun d hd => ?_
  rcases List.mem_flatMap.mp hd with ⟨g, _, hd⟩
  rcases List.mem_map.mp hd with ⟨id, _, rfl⟩
  exact ⟨id.name, rfl⟩

theorem isNamed_of_mem_guids {kept : List (Constant Guid)}
    (hkept : ∀ k ∈ kept, IsName k.name.toList) {name : String} {tables : List LocatedTable}
    {g : GuidClass} (h : g ∈ (TableClass.ofMembers kept name tables).1.guids) : g.IsNamed := by
  rw [TableClass.ofMembers, mem_sortBy, List.map_map] at h
  rcases List.mem_map.mp h with ⟨entry, hentry, rfl⟩
  exact ⟨hkept entry.1 (mem_of_mem_agreeing hentry), isName_of_mem_idsUnder entry.2⟩

/-- Resolved classes have identifiers for names. -/
theorem isNamed_of_mem_ofTables {tables : List LocatedTable} {c : TableClass}
    (h : c ∈ (TableClass.ofTables tables).1) : c.IsNamed := by
  rw [TableClass.ofTables, mem_sortBy, List.map_map] at h
  rcases List.mem_map.mp h with ⟨entry, hentry, rfl⟩
  refine ⟨?_, fun g hg => isNamed_of_mem_guids (isName_of_mem_guidsOf tables) hg⟩
  -- Tables are gathered under the identifiers of their names.
  rcases Grouping.exists_of_mem_entries_ofList hentry with ⟨item, hitem, hkey⟩
  rcases List.mem_map.mp hitem with ⟨t, _, rfl⟩
  have hname : (TableClass.ofMembers (guidsOf tables).constants entry.1 entry.2).1.name =
      ofName t.table.name := hkey.symm
  exact hname ▸ isName_ofName t.table.name

end Names

section Nested

theorem isOutline_guidClassMembers {c : GuidClass} (h : c.IsNamed) :
    IsOutline (textConstant "GuidString" c.guid.value.hyphenated ::
      guidField "Guid" "GuidString" :: c.ids.map idConstant) :=
  isOutline_guid (isName_of_mem_fixed _ (by simp)) (isName_of_mem_fixed _ (by simp)) (by decide)
    c.guid.value (isOutline_idConstants h.ids)

theorem isRemarkText_quoted (front behind : String) (title : String)
    (hfront : isRemarkText front.toList = true) (hbehind : isRemarkText behind.toList = true) :
    isRemarkText (front ++ remark title ++ behind).toList = true := by
  rw [String.toList_append, String.toList_append]
  exact isRemarkText_append (isRemarkText_append hfront (isRemarkText_remark title)) hbehind

theorem isOneLine_quoted (front behind : String) (title : String) (hfront : IsOneLine front)
    (hbehind : IsOneLine behind) : IsOneLine (front ++ remark title ++ behind) :=
  isOneLine_append (isOneLine_append hfront (isOneLine_remark title)) hbehind

theorem isOutline_guidClassSteps {c : GuidClass} (h : c.IsNamed) : IsOutline (guidClassSteps c) :=
  isOutline_classSteps (isOutline_guidClassMembers h)
    (isRemarkText_quoted _ _ _ (by decide) (by decide))
    (isOneLine_quoted _ _ _ (by decide) (by decide)) h.guid

theorem declared_guidClassSteps {c : GuidClass} (h : c.IsNamed) :
    declared 2 (guidClassSteps c) = c.items := by
  rw [guidClassSteps, declared_classSteps (isOutline_guidClassMembers h),
    declared_textConstant (isName_of_mem_fixed "GuidString" (by simp)),
    declared_guidField (isName_of_mem_fixed "Guid" (by simp)), declared_idConstants h.ids]
  rfl

theorem isOutline_nestedMembers {c : TableClass} (h : c.IsNamed) :
    IsOutline (c.guids.flatMap guidClassSteps) :=
  isOutline_flatMap fun g hg => isOutline_guidClassSteps (h.guids g hg)

/-- Each class inside is an outline, and declares its own members. -/
theorem declared_nestedMembers {c : TableClass} (h : c.IsNamed) :
    declared 2 (c.guids.flatMap guidClassSteps) = c.guids.flatMap GuidClass.items := by
  rw [declared_flatMap fun g hg => isOutline_guidClassSteps (h.guids g hg)]
  exact List.flatMap_congr fun g hg => declared_guidClassSteps (h.guids g hg)

theorem lineCount_idConstants (ids : List (Constant CommandId)) :
    lineCount (ids.map idConstant) = ids.length := by
  induction ids with
  | nil => rfl
  | cons id ids ih =>
      rw [List.map_cons, lineCount_cons, ih, List.length_cons, Nat.add_comm]
      rfl

theorem lineCount_guidClassSteps (c : GuidClass) :
    lineCount (guidClassSteps c) = 6 + c.ids.length := by
  have hnone : lineCount [] = 0 := rfl
  simp only [guidClassSteps, classSteps, summary, textConstant, guidField, lineCount_cons,
    lineCount_append, lineCount_idConstants, Step.texts, List.length_cons, List.length_nil]
  omega

/-- The file of the class of a table conveys what the class declares. -/
theorem conveys_nestedFile {namespaceName : String} (hspace : IsOneLine namespaceName)
    (languageVersion : String) {c : TableClass} (h : c.IsNamed) :
    (nestedFile namespaceName languageVersion c).Conveys languageVersion c.lineCount c.items := by
  have hcount : lineCount (c.guids.flatMap guidClassSteps) =
      (c.guids.map fun g => 6 + g.ids.length).sum := by
    rw [lineCount_flatMap]
    exact congrArg List.sum (List.map_congr_left fun g _ => lineCount_guidClassSteps g)
  rw [TableClass.lineCount, TableClass.items, ← hcount, ← declared_nestedMembers h]
  exact conveys_classFile hspace h.name (isRemarkText_quoted _ _ _ (by decide) (by decide))
    (isOneLine_quoted _ _ _ (by decide) (by decide)) (isOutline_nestedMembers h) _ _

end Nested

section Flat

/-- Two identifiers one behind the other are made of the same characters. -/
theorem isName_append {s t : String} (hs : IsName s.toList) (ht : IsName t.toList) :
    IsName (s ++ t).toList := by
  intro c hc
  rw [String.toList_append, List.mem_append] at hc
  rcases hc with hc | hc
  · exact hs c hc
  · exact ht c hc

/-- The name of a GUID with the ending of its text is an identifier. -/
theorem isName_textOf {name : String} (h : IsName name.toList) :
    IsName (name ++ "String").toList :=
  isName_append h (isName_of_mem_fixed "String" (by simp))

theorem isOutline_flatGuidSteps {guid : Constant Guid} (h : IsName guid.name.toList) :
    IsOutline (flatGuidSteps guid) :=
  isOutline_guid (isName_textOf h) h (isOneLine_of_isName (isName_textOf h)) guid.value .done

theorem declared_flatGuidSteps {guid : Constant Guid} (h : IsName guid.name.toList) :
    declared 2 (flatGuidSteps guid) =
      [(2, .guidText (guid.name ++ "String") guid.value),
       (2, .guidField guid.name (guid.name ++ "String"))] := by
  rw [flatGuidSteps, declared_textConstant (isName_textOf h), declared_guidField h]
  rfl

theorem isOutline_flatMembers {guids : List (Constant Guid)}
    (h : ∀ guid ∈ guids, IsName guid.name.toList) : IsOutline (guids.flatMap flatGuidSteps) :=
  isOutline_flatMap fun guid hguid => isOutline_flatGuidSteps (h guid hguid)

theorem declared_flatMembers {guids : List (Constant Guid)}
    (h : ∀ guid ∈ guids, IsName guid.name.toList) :
    declared 2 (guids.flatMap flatGuidSteps) = guids.flatMap fun guid =>
      [(2, .guidText (guid.name ++ "String") guid.value),
       (2, .guidField guid.name (guid.name ++ "String"))] := by
  rw [declared_flatMap fun guid hguid => isOutline_flatGuidSteps (h guid hguid)]
  exact List.flatMap_congr fun guid hguid => declared_flatGuidSteps (h guid hguid)

theorem lineCount_flatGuidSteps (guids : List (Constant Guid)) :
    lineCount (guids.flatMap flatGuidSteps) = 2 * guids.length := by
  induction guids with
  | nil => rfl
  | cons guid guids ih =>
      rw [List.flatMap_cons, lineCount_append, ih, List.length_cons, Nat.mul_succ, Nat.add_comm]
      rfl

/-- The file of the GUIDs of a flat layout conveys them. -/
theorem conveys_guidsFile {namespaceName : String} (hspace : IsOneLine namespaceName)
    (languageVersion : String) {classes : FlatClasses}
    (h : ∀ guid ∈ classes.guids, IsName guid.name.toList) :
    (classFile namespaceName languageVersion "PackageGuids.g.cs" "Defines GUIDs from VSCT files."
      "PackageGuids" (classes.guids.flatMap flatGuidSteps)).Conveys languageVersion
      (7 + 2 * classes.guids.length) classes.guidItems := by
  rw [FlatClasses.guidItems, ← lineCount_flatGuidSteps, ← declared_flatMembers h]
  exact conveys_classFile hspace (isName_of_mem_fixed _ (by simp)) (by decide) (by decide)
    (isOutline_flatMembers h) _ _

/-- The file of the identifiers of a flat layout conveys them. -/
theorem conveys_idsFile {namespaceName : String} (hspace : IsOneLine namespaceName)
    (languageVersion : String) {classes : FlatClasses}
    (h : ∀ id ∈ classes.ids, IsName id.name.toList) :
    (classFile namespaceName languageVersion "PackageIds.g.cs" "Defines IDs from VSCT files."
      "PackageIds" (classes.ids.map idConstant)).Conveys languageVersion
      (7 + classes.ids.length) classes.idItems := by
  rw [FlatClasses.idItems, ← lineCount_idConstants, ← declared_idConstants h 2]
  exact conveys_classFile hspace (isName_of_mem_fixed _ (by simp)) (by decide) (by decide)
    (isOutline_idConstants h) _ _

end Flat

/-- The files of both layouts convey exactly what was resolved, whatever the names of tables,
    GUIDs and identifiers are. -/
theorem files_convey (tables : List LocatedTable) (languageVersion : String)
    {namespaceName : String} (hspace : IsOneLine namespaceName) :
    List.Forall₂ (fun file c => file.Conveys languageVersion c.lineCount c.items)
      (Layout.nested.files namespaceName languageVersion tables).1
      (TableClass.ofTables tables).1 ∧
    ∃ guids ids, (Layout.flat.files namespaceName languageVersion tables).1 = [guids, ids] ∧
      guids.Conveys languageVersion (7 + 2 * (FlatClasses.ofTables tables).1.guids.length)
        (FlatClasses.ofTables tables).1.guidItems ∧
      ids.Conveys languageVersion (7 + (FlatClasses.ofTables tables).1.ids.length)
        (FlatClasses.ofTables tables).1.idItems := by
  -- The nested layout has a file for each class, in the order of the classes.
  refine ⟨?_, _, _, rfl, ?_, ?_⟩
  · refine List.forall₂_map_left_iff.mpr (List.forall₂_same.mpr fun c hc => ?_)
    exact conveys_nestedFile hspace languageVersion (isNamed_of_mem_ofTables hc)
  · exact conveys_guidsFile hspace languageVersion (isName_of_mem_guidsOf tables)
  · exact conveys_idsFile hspace languageVersion (isName_of_mem_idsOf tables)

/-- A table whose names try to leave the line that they are on. -/
def breakingTable : LocatedTable where
  path := "menus.vsct"
  table := ⟨"Menus\n\x7d", [⟨"guid</summary>\r", ⟨1⟩, [⟨"id = 0;\n", -2⟩]⟩]⟩

/-- Names that try to leave their line are conveyed like any others. -/
theorem files_convey_breakingTable :
    IsOneLine "Acme" ∧ ∃ file,
      (Layout.nested.files "Acme" "7.3" [breakingTable]).1 = [file] ∧
      file.Conveys "7.3" 14 [(1, .opened "Menus__"), (2, .opened "guid__summary__"),
        (3, .guidText "GuidString" ⟨1⟩), (3, .guidField "Guid" "GuidString"),
        (3, .id "id___0__" (-2))] := by
  have hspace : IsOneLine "Acme" := by decide
  have hclasses : (TableClass.ofTables [breakingTable]).1 =
      [⟨"Menus__", "Menus\n\x7d", [⟨⟨"guid__summary__", "guid</summary>\r", ⟨1⟩⟩,
        [⟨"id___0__", "id = 0;\n", -2⟩]⟩]⟩] := by decide +kernel
  have hfiles := (files_convey [breakingTable] "7.3" hspace).1
  rw [hclasses] at hfiles
  rcases List.forall₂_cons_right_iff.mp hfiles with ⟨file, rest, hfile, hrest, heq⟩
  rw [List.forall₂_nil_right_iff.mp hrest] at heq
  exact ⟨hspace, file, heq, hfile⟩

end PackageSymbols

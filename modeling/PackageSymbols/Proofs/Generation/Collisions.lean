import PackageSymbols.Proofs.Classes.Order
import PackageSymbols.Proofs.Generation.OuterClasses

/-!
# When Members Collide

A class cannot have two members of one name, and none of its members can be
called like the class itself. Here the members of each class are read back from
the text of a file, where the depth of a declaration tells which class it is a
member of, and the files without a collision are characterized.

Merging keeps apart the names that it is given, and two kinds of names are not
among them. Names that a layout adds are one kind: the second member of a GUID in
the flat layout, and the two members that each class of a GUID begins with in the
nested one. Names of the classes around are the other. A name that is written in
a document may meet either, and then the file does not compile. The theorems list
these cases, and there are no more of them.

## Main definitions

* `classMembers`: The classes among declarations, with the members of each.
* `File.itemsInside`: What is declared inside the namespace of a file.
* `File.IsCollisionFree`: No class of a file has members that collide.
* `TableClass.KeepsClear`: What names in a nested class have to keep clear of.

## Theorems

* `classMembers_items`, `classMembers_guidItems`: The members of generated
  classes.
* `nestedFiles_isCollisionFree_iff`, `flatFiles_isCollisionFree_iff`: When members
  collide in the nested and in the flat layout.
-/

namespace PackageSymbols

open Identifier Markup Source

namespace Source

/-- The name that is declared. -/
def Item.name : Item → String
  | .opened name => name
  | .guidText name _ => name
  | .guidField name _ => name
  | .id name _ => name

/-- The names declared at a depth, as long as nothing is declared less deep. -/
def membersAt (depth : Nat) (items : List (Nat × Item)) : List String :=
  ((items.takeWhile fun item => decide (depth ≤ item.1)).filter fun item =>
    decide (item.1 = depth)).map fun item => item.2.name

/-- The classes among declarations, each with the names that are declared directly inside. -/
def classMembers : List (Nat × Item) → List (String × List String)
  | [] => []
  | (depth, .opened name) :: rest => (name, membersAt (depth + 1) rest) :: classMembers rest
  | _ :: rest => classMembers rest

/-- What is declared inside the namespace of a file. -/
def File.itemsInside (file : File) : List (Nat × Item) :=
  match dropStart? ("namespace " ++ file.namespaceName ++ "\n\x7b\n").toList
    (behindEmptyLine file.content.toList) with
  | some inside => itemsIn (codeLines inside)
  | none => []

/-- Whether in each class of a file the members have names of their own, and none has the name of
    the class. -/
def File.IsCollisionFree (file : File) : Prop :=
  ∀ c ∈ classMembers file.itemsInside, c.2.Nodup ∧ c.1 ∉ c.2

section Depths

variable {depth : Nat} {items : List (Nat × Item)}

theorem membersAt_cons_of_lt {d : Nat} (h : d < depth) (item : Item) (rest : List (Nat × Item)) :
    membersAt depth ((d, item) :: rest) = [] := by
  rw [membersAt, List.takeWhile_cons, if_neg]
  · rfl
  · rw [decide_eq_true_eq]
    exact Nat.not_le.mpr h

theorem membersAt_append_of_eq (h : ∀ item ∈ items, item.1 = depth) (rest : List (Nat × Item)) :
    membersAt depth (items ++ rest) =
      (items.map fun item => item.2.name) ++ membersAt depth rest := by
  have hdepth : ∀ item ∈ items, decide (depth ≤ item.1) = true := fun item hitem =>
    decide_eq_true (Nat.le_of_eq (h item hitem).symm)
  rw [membersAt, List.takeWhile_append_of_pos hdepth, List.filter_append, List.map_append,
    List.filter_eq_self.mpr fun item hitem => decide_eq_true (h item hitem)]
  rfl

theorem membersAt_append_of_gt (h : ∀ item ∈ items, depth < item.1) (rest : List (Nat × Item)) :
    membersAt depth (items ++ rest) = membersAt depth rest := by
  have hdepth : ∀ item ∈ items, decide (depth ≤ item.1) = true := fun item hitem =>
    decide_eq_true (Nat.le_of_lt (h item hitem))
  have hnone : items.filter (fun item => decide (item.1 = depth)) = [] :=
    List.filter_eq_nil_iff.mpr fun item hitem heq =>
      Nat.ne_of_gt (h item hitem) (of_decide_eq_true heq)
  rw [membersAt, List.takeWhile_append_of_pos hdepth, List.filter_append, hnone]
  rfl

/-- Where no class is opened, no class is found. -/
theorem classMembers_append (h : ∀ item ∈ items, ∀ name, item.2 ≠ .opened name)
    (rest : List (Nat × Item)) : classMembers (items ++ rest) = classMembers rest := by
  induction items with
  | nil => rfl
  | cons item items ih =>
      rw [List.cons_append, classMembers, ih fun other hother =>
        h other (List.mem_cons_of_mem item hother)]
      exact fun depth name heq => h item List.mem_cons_self name (congrArg Prod.snd heq)

end Depths

/-- What is inside the namespace of a file is its class, with the members of the class one level
    deeper. -/
theorem itemsInside_classFile {documentation className : String} {members : List Step}
    (hname : IsName className.toList) (hsafe : isRemarkText documentation.toList = true)
    (hdocumentation : IsOneLine documentation) (hmembers : IsOutline members)
    (namespaceName languageVersion name : String) :
    (classFile namespaceName languageVersion name documentation className members).itemsInside =
      (1, .opened className) :: declared 2 members := by
  have hclass := isOutline_classSteps hmembers hsafe hdocumentation hname
  have hinside := insideNamespace_classFile namespaceName languageVersion name documentation
    className members
  have hclosing : linesAt 1 [.closing] = ["\x7d"] := rfl
  have hlines : ∀ line ∈ linesAt 1 (classSteps documentation className members ++ [.closing]),
      IsOneLine line := by
    intro line hline
    rw [hclass.linesAt_append, hclosing, List.mem_append, List.mem_singleton] at hline
    rcases hline with hline | rfl
    · exact hclass.isOneLine 1 line hline
    · decide
  rw [File.itemsInside]
  simp only [classFile] at hinside ⊢
  simp only [hinside]
  rw [codeLines_joinLines hlines]
  -- Behind the class there is a brace, which declares nothing.
  refine (declared_append hclass 1 [.closing]).trans ?_
  rw [declared_classSteps hmembers]
  exact List.append_nil _

end Source

section Nested

/-- What a class of a GUID declares inside. -/
def GuidClass.inner (c : GuidClass) : List (Nat × Item) :=
  (3, .guidText "GuidString" c.guid.value) :: (3, .guidField "Guid" "GuidString") ::
    c.ids.map fun id => (3, .id id.name id.value)

/-- The members that each class of a GUID begins with. -/
def fixedMembers : List String :=
  ["GuidString", "Guid"]

/-- The names of the members of the class of a GUID. -/
def GuidClass.memberNames (c : GuidClass) : List String :=
  fixedMembers ++ c.ids.map (·.name)

/-- Whether the names in a class of the nested layout keep clear of the names that were not merged
    with them. -/
structure TableClass.KeepsClear (c : TableClass) : Prop where
  /-- No GUID has the name of the class around it. -/
  outer : ∀ g ∈ c.guids, g.guid.name ≠ c.name
  /-- No GUID has the name of a member that its class begins with. -/
  fixed : ∀ g ∈ c.guids, g.guid.name ∉ fixedMembers
  /-- No identifier has such a name or that of the GUID it is under. -/
  ids : ∀ g ∈ c.guids, ∀ id ∈ g.ids, id.name ∉ g.guid.name :: fixedMembers

theorem GuidClass.items_eq (c : GuidClass) : c.items = (2, .opened c.guid.name) :: c.inner :=
  rfl

theorem GuidClass.forall_mem_inner (c : GuidClass) :
    ∀ item ∈ c.inner, item.1 = 3 ∧ ∀ name, item.2 ≠ .opened name := by
  intro item hitem
  rcases List.mem_cons.mp hitem with rfl | hitem
  · exact ⟨rfl, fun _ => Item.noConfusion⟩
  rcases List.mem_cons.mp hitem with rfl | hitem
  · exact ⟨rfl, fun _ => Item.noConfusion⟩
  rcases List.mem_map.mp hitem with ⟨id, _, rfl⟩
  exact ⟨rfl, fun _ => Item.noConfusion⟩

theorem GuidClass.map_name_inner (c : GuidClass) :
    (c.inner.map fun item => item.2.name) = c.memberNames := by
  rw [GuidClass.inner, List.map_cons, List.map_cons, List.map_map]
  rfl

/-- The members of the class of a table are the classes of its GUIDs. -/
theorem membersAt_guidClasses (guids : List GuidClass) :
    membersAt 2 (guids.flatMap GuidClass.items) = guids.map (·.guid.name) := by
  induction guids with
  | nil => rfl
  | cons c guids ih =>
      have hinner : ∀ item ∈ c.inner, 2 < item.1 := by
        intro item hitem
        rw [(c.forall_mem_inner item hitem).1]
        decide
      have hopened : ∀ item ∈ [((2, .opened c.guid.name) : Nat × Item)], item.1 = 2 := by
        intro item hitem
        rw [List.mem_singleton.mp hitem]
      rw [List.flatMap_cons, GuidClass.items_eq, List.cons_append, ← List.singleton_append,
        membersAt_append_of_eq hopened, membersAt_append_of_gt hinner, ih]
      rfl

theorem classMembers_guidClasses (guids : List GuidClass) :
    classMembers (guids.flatMap GuidClass.items) =
      guids.map fun c => (c.guid.name, c.memberNames) := by
  induction guids with
  | nil => rfl
  | cons c guids ih =>
      -- The next class begins less deep, so the members of this one end there.
      have hnext : membersAt 3 (guids.flatMap GuidClass.items) = [] := by
        cases guids with
        | nil => rfl
        | cons e guids => exact membersAt_cons_of_lt (by decide) _ _
      rw [List.flatMap_cons, GuidClass.items_eq, List.cons_append, classMembers,
        membersAt_append_of_eq fun item hitem => (c.forall_mem_inner item hitem).1, hnext,
        List.append_nil, c.map_name_inner,
        classMembers_append fun item hitem => (c.forall_mem_inner item hitem).2, ih]
      rfl

/-- The class of a table has the classes of its GUIDs for members, and each of these has two fixed
    members in front of the identifiers under the GUID. -/
theorem classMembers_items (c : TableClass) :
    classMembers c.items =
      (c.name, c.guids.map (·.guid.name)) :: c.guids.map fun g => (g.guid.name, g.memberNames) := by
  rw [TableClass.items, classMembers, membersAt_guidClasses, classMembers_guidClasses]

theorem itemsInside_nestedFile (namespaceName languageVersion : String) {c : TableClass}
    (h : c.IsNamed) : (nestedFile namespaceName languageVersion c).itemsInside = c.items := by
  rw [TableClass.items, ← declared_nestedMembers h]
  exact itemsInside_classFile h.name (isRemarkText_quoted _ _ _ (by decide) (by decide))
    (isOneLine_quoted _ _ _ (by decide) (by decide)) (isOutline_nestedMembers h) _ _ _

/-- Names under one GUID are different, so they can only meet the members that were there. -/
theorem nodup_memberNames_iff {tables : List LocatedTable} {c : TableClass}
    (hc : c ∈ (TableClass.ofTables tables).1) {g : GuidClass} (hg : g ∈ c.guids) :
    g.memberNames.Nodup ↔ ∀ id ∈ g.ids, id.name ∉ fixedMembers := by
  have hids : (g.ids.map (·.name)).Nodup := by
    rcases mem_ofTables.mp hc with ⟨t, _, rfl⟩
    rw [(mem_guids_tableClass.mp hg).2]
    exact nodup_names_constants _
  rw [GuidClass.memberNames, List.nodup_append]
  simp only [List.forall_mem_map]
  constructor
  · rintro ⟨_, _, hdifferent⟩ id hid hmem
    exact hdifferent _ hmem id hid rfl
  · intro h
    refine ⟨by decide, hids, ?_⟩
    rintro name hname id hid rfl
    exact h id hid hname

/-- A file of the nested layout is free of collisions exactly when the names in its class keep
    clear of those around them and of those that the layout adds. -/
theorem isCollisionFree_nestedFile_iff {tables : List LocatedTable} {c : TableClass}
    (hc : c ∈ (TableClass.ofTables tables).1) (namespaceName languageVersion : String) :
    (nestedFile namespaceName languageVersion c).IsCollisionFree ↔ c.KeepsClear := by
  -- Inner classes are named by the merge, so their names differ in any case.
  have hguids : (c.guids.map (·.guid.name)).Nodup := by
    rcases mem_ofTables.mp hc with ⟨t, _, rfl⟩
    exact nodup_of_increasing (increasing_guids_tableClass tables _)
  rw [File.IsCollisionFree, itemsInside_nestedFile _ _ (isNamed_of_mem_ofTables hc),
    classMembers_items, List.forall_mem_cons, List.forall_mem_map]
  simp only [List.mem_map, not_exists, not_and]
  constructor
  · rintro ⟨⟨_, houter⟩, hinner⟩
    refine ⟨houter, fun g hg hmem => ?_, fun g hg id hid hmem => ?_⟩
    · exact (hinner g hg).2 (List.mem_append_left _ hmem)
    · rcases List.mem_cons.mp hmem with hname | hmem
      · exact (hinner g hg).2 (List.mem_append_right _ (List.mem_map.mpr ⟨id, hid, hname⟩))
      · exact (nodup_memberNames_iff hc hg).mp (hinner g hg).1 id hid hmem
  · intro h
    refine ⟨⟨hguids, h.outer⟩, fun g hg => ⟨?_, ?_⟩⟩
    · exact (nodup_memberNames_iff hc hg).mpr fun id hid hmem =>
        h.ids g hg id hid (List.mem_cons_of_mem _ hmem)
    · intro hmem
      rcases List.mem_append.mp hmem with hmem | hmem
      · exact h.fixed g hg hmem
      · rcases List.mem_map.mp hmem with ⟨id, hid, hname⟩
        exact h.ids g hg id hid (hname ▸ List.mem_cons_self)

/-- The files of the nested layout have the members of the classes of the scope, one file for each
    class, and a file is free of collisions exactly when the names in its class keep clear. -/
theorem nestedFiles_isCollisionFree_iff (tables : List LocatedTable)
    (namespaceName languageVersion : String) :
    List.Forall₂ (fun file c =>
        classMembers file.itemsInside = (c.name, c.guids.map (·.guid.name)) ::
          c.guids.map (fun g => (g.guid.name, fixedMembers ++ g.ids.map (·.name))) ∧
        (file.IsCollisionFree ↔ c.KeepsClear))
      (Layout.nested.files namespaceName languageVersion tables).1
      (TableClass.ofTables tables).1 := by
  refine List.forall₂_map_left_iff.mpr (List.forall₂_same.mpr fun c hc => ⟨?_, ?_⟩)
  · rw [itemsInside_nestedFile _ _ (isNamed_of_mem_ofTables hc), classMembers_items]
    rfl
  · exact isCollisionFree_nestedFile_iff hc namespaceName languageVersion

/-- A table with an identifier that is called like a member of every class of a GUID. -/
def meetingTable : LocatedTable where
  path := "Commands.vsct"
  table := ⟨"Commands", [⟨"guidMenus", ⟨1⟩, [⟨"Guid", 5⟩]⟩]⟩

/-- Not every file of the nested layout is free of collisions. -/
theorem not_forall_nestedFiles_isCollisionFree :
    ¬ ∀ (tables : List LocatedTable) (namespaceName languageVersion : String),
      ∀ file ∈ (Layout.nested.files namespaceName languageVersion tables).1,
        file.IsCollisionFree := by
  intro hall
  have hclasses : (TableClass.ofTables [meetingTable]).1 =
      [⟨"Commands", "Commands", [⟨⟨"Menus", "guidMenus", ⟨1⟩⟩, [⟨"Guid", "Guid", 5⟩]⟩]⟩] := by
    decide +kernel
  have hmem := hclasses ▸ List.mem_cons_self
  have hfree := hall [meetingTable] "Tool" "7.3" _ (List.mem_map_of_mem hmem)
  have hclear := (isCollisionFree_nestedFile_iff hmem "Tool" "7.3").mp hfree
  exact hclear.ids _ List.mem_cons_self _ List.mem_cons_self (by decide)

end Nested

section Flat

variable (tables : List LocatedTable)

/-- The names that GUIDs of tables lead to. -/
def guidKeys : List String :=
  (guidDeclarations tables).map (·.key)

/-- The class of the GUIDs has two members for each GUID, and there are no other classes. -/
theorem classMembers_guidItems (classes : FlatClasses) :
    classMembers classes.guidItems =
      [("PackageGuids", (classes.guids.map (·.name)).flatMap fun name =>
        [name ++ "String", name])] := by
  -- All items are at one depth and none opens a class, so the class at hand has them all.
  have hmembers : ∀ item ∈ classes.guids.flatMap fun guid =>
      [((2, .guidText (guid.name ++ "String") guid.value) : Nat × Item),
       (2, .guidField guid.name (guid.name ++ "String"))],
      item.1 = 2 ∧ ∀ name, item.2 ≠ .opened name := by
    intro item hitem
    rcases List.mem_flatMap.mp hitem with ⟨guid, _, hitem⟩
    rcases List.mem_cons.mp hitem with rfl | hitem
    · exact ⟨rfl, fun _ => Item.noConfusion⟩
    · rw [List.mem_singleton.mp hitem]
      exact ⟨rfl, fun _ => Item.noConfusion⟩
  have hnames := membersAt_append_of_eq (fun item hitem => (hmembers item hitem).1) []
  have hclasses := classMembers_append (fun item hitem => (hmembers item hitem).2) []
  rw [List.append_nil] at hnames hclasses
  rw [FlatClasses.guidItems, classMembers, hnames, hclasses, List.map_flatMap, List.flatMap_map]
  exact congrArg (fun names => [("PackageGuids", names)]) (List.append_nil _)

/-- Names and the same names with an ending are all different unless a name has the ending of
    another. -/
theorem nodup_flatMap_ending_iff {names : List String} (h : names.Nodup) (ending : String) :
    (names.flatMap fun name => [name ++ ending, name]).Nodup ↔
      ∀ name ∈ names, name ++ ending ∉ names := by
  have hperm := List.flatMap_append_perm names (fun name => [name ++ ending]) fun name => [name]
  rw [← List.map_eq_flatMap, ← List.map_eq_flatMap, List.map_id'] at hperm
  have hinjective : Function.Injective fun name : String => name ++ ending :=
    fun _ _ heq => (String.append_left_inj ending).mp heq
  refine hperm.nodup_iff.symm.trans ?_
  rw [List.nodup_append, List.forall_mem_map]
  constructor
  · rintro ⟨_, _, hdifferent⟩ name hname hmem
    exact hdifferent name hname _ hmem rfl
  · intro hno
    refine ⟨h.map hinjective, h, ?_⟩
    rintro name hname _ hmem rfl
    exact hno name hname hmem

theorem mem_guidKeys {key : String} :
    key ∈ guidKeys tables ↔ key ∈ (guidsOf tables).constants.map (·.name) :=
  ((firstWins_merge (guidDeclarations tables)).names key).symm

/-- The file of the GUIDs in the flat layout. -/
def guidsFile (namespaceName languageVersion : String) : File :=
  classFile namespaceName languageVersion "PackageGuids.g.cs" "Defines GUIDs from VSCT files."
    "PackageGuids" ((guidsOf tables).constants.flatMap flatGuidSteps)

theorem itemsInside_guidsFile (namespaceName languageVersion : String) :
    (guidsFile tables namespaceName languageVersion).itemsInside =
      (FlatClasses.ofTables tables).1.guidItems := by
  have hnames := isName_of_mem_guidsOf tables
  refine (itemsInside_classFile (isName_of_mem_fixed _ (by simp)) (by decide) (by decide)
    (isOutline_flatMembers hnames) _ _ _).trans ?_
  rw [declared_flatMembers hnames]
  rfl

/-- The file of the GUIDs is free of collisions exactly when no GUID is called like the class, or
    like another GUID with the ending of its text. -/
theorem isCollisionFree_guidsFile_iff (namespaceName languageVersion : String) :
    (guidsFile tables namespaceName languageVersion).IsCollisionFree ↔
      ∀ key ∈ guidKeys tables, key ≠ "PackageGuids" ∧ key ++ "String" ∉ guidKeys tables := by
  have hnodup : ((guidsOf tables).constants.map (·.name)).Nodup :=
    nodup_names_constants (guidDeclarations tables)
  have hclass : "PackageGuids" ∉ ((guidsOf tables).constants.map (·.name)).flatMap
      (fun name => [name ++ "String", name]) ↔
      ∀ key ∈ (guidsOf tables).constants.map (·.name), key ≠ "PackageGuids" := by
    rw [List.mem_flatMap]
    constructor
    · rintro hno key hkey rfl
      exact hno ⟨_, hkey, List.mem_cons_of_mem _ List.mem_cons_self⟩
    · rintro hno ⟨key, hkey, hmem⟩
      rcases List.mem_cons.mp hmem with heq | hmem
      -- The name of the class does not have the ending, so the text of a GUID cannot have it.
      · have hsuffix : "String".toList <:+ "PackageGuids".toList :=
          ⟨key.toList, by rw [heq, String.toList_append]⟩
        exact absurd hsuffix (by decide)
      · exact hno key hkey (List.mem_singleton.mp hmem).symm
  rw [File.IsCollisionFree, itemsInside_guidsFile, classMembers_guidItems,
    List.forall_mem_singleton]
  simp only [mem_guidKeys]
  refine (and_congr (nodup_flatMap_ending_iff hnodup "String") hclass).trans ?_
  rw [and_comm]
  exact forall₂_and.symm

/-- The first file of the flat layout has two members for each GUID, and is free of collisions
    exactly when no GUID is called like the class, or like another with the ending of its text. -/
theorem flatFiles_isCollisionFree_iff (namespaceName languageVersion : String) :
    ∃ guids ids, (Layout.flat.files namespaceName languageVersion tables).1 = [guids, ids] ∧
      classMembers guids.itemsInside =
        [("PackageGuids", ((guidsOf tables).constants.map (·.name)).flatMap fun name =>
          [name ++ "String", name])] ∧
      (guids.IsCollisionFree ↔
        ∀ key ∈ guidKeys tables, key ≠ "PackageGuids" ∧ key ++ "String" ∉ guidKeys tables) := by
  refine ⟨guidsFile tables namespaceName languageVersion, _, rfl, ?_,
    isCollisionFree_guidsFile_iff tables namespaceName languageVersion⟩
  rw [itemsInside_guidsFile, classMembers_guidItems]
  rfl

/-- A table with a GUID that is called like the text of another. -/
def endingTable : LocatedTable where
  path := "Menus.vsct"
  table := ⟨"Menus", [⟨"guidMenu", ⟨1⟩, []⟩, ⟨"guidMenuString", ⟨2⟩, []⟩]⟩

/-- Not every file of GUIDs in the flat layout is free of collisions. -/
theorem not_forall_flatFiles_isCollisionFree :
    ¬ ∀ (tables : List LocatedTable) (namespaceName languageVersion : String),
      ∃ guids ids, (Layout.flat.files namespaceName languageVersion tables).1 = [guids, ids] ∧
        guids.IsCollisionFree := by
  intro hall
  rcases hall [endingTable] "Tool" "7.3" with ⟨guids, ids, hfiles, hfree⟩
  have hguids : guidsFile [endingTable] "Tool" "7.3" = guids := (List.cons.inj hfiles).1
  rw [← hguids, isCollisionFree_guidsFile_iff] at hfree
  have hmenu : "Menu" ∈ guidKeys [endingTable] := by decide +kernel
  have hending : "Menu" ++ "String" ∈ guidKeys [endingTable] := by decide +kernel
  exact (hfree "Menu" hmenu).2 hending

end Flat

end PackageSymbols

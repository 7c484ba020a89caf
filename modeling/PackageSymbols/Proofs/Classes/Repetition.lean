import PackageSymbols.Proofs.Classes.Order
import PackageSymbols.Proofs.Merge.Repetition

/-!
# Classes of Tables That Come Twice

A build may be given one table several times, by patterns that overlap or by
copies of a document. The classes are those of the tables without the repetitions,
whatever the tables hold and however they contradict each other.

In the flat layout this is what merging does with declarations that are repeated.
In the nested layout a repeated table joins a class as well, and its symbols join
groups of that class. Both grow at their ends only: the tables of a class are those
it had before and then repetitions, and so are the symbols under a GUID, since the
same GUIDs are kept. So each of the merges is given declarations that it was given
before and then repetitions of them, and the first table of a class stays the first.

## Main definitions

* `AlreadyIn`: Each table of a list is in another list, maybe at another path.

## Theorems

* `guidsOf_append`: The same GUIDs are kept.
* `symbolsUnder_append`: The symbols under a GUID, and those that join them.
* `repeats_idDeclarationsUnder`: What is declared under the latter is repeated.
* `tableClass_append`: A class is not changed by repetitions of its tables.
* `classes_append_of_alreadyIn`: Nor is the scope in either layout.
-/

namespace PackageSymbols

open Identifier

/-- Whether each table of a list is in another list already, at the same path or another. -/
def AlreadyIn (tables repeated : List LocatedTable) : Prop :=
  ∀ t ∈ repeated, ∃ u ∈ tables, u.table = t.table

section Declarations

variable {tables repeated : List LocatedTable} (hrep : AlreadyIn tables repeated)

include hrep

theorem repeats_guidDeclarations :
    Repeats (guidDeclarations tables) (guidDeclarations repeated) := by
  intro e he
  rcases mem_guidDeclarations.mp he with ⟨t, ht, guid, hguid, rfl⟩
  rcases hrep t ht with ⟨u, hu, hsame⟩
  exact ⟨_, mem_guidDeclarations.mpr ⟨u, hu, guid, hsame ▸ hguid, rfl⟩, rfl⟩

theorem repeats_idDeclarations :
    Repeats (idDeclarations tables) (idDeclarations repeated) := by
  intro e he
  rcases mem_idDeclarations.mp he with ⟨t, ht, guid, hguid, id, hid, rfl⟩
  rcases hrep t ht with ⟨u, hu, hsame⟩
  exact ⟨_, mem_idDeclarations.mpr ⟨u, hu, guid, hsame ▸ hguid, id, hid, rfl⟩, rfl⟩

/-- The same GUIDs are kept. -/
theorem guidsOf_append :
    (guidsOf (tables ++ repeated)).constants = (guidsOf tables).constants := by
  have hkept := constants_append_of_repeats (repeats_guidDeclarations hrep)
  rw [← guidDeclarations_append] at hkept
  exact hkept

theorem idsOf_append : (idsOf (tables ++ repeated)).constants = (idsOf tables).constants := by
  have hkept := constants_append_of_repeats (repeats_idDeclarations hrep)
  rw [← idDeclarations_append] at hkept
  exact hkept

theorem agree_guidDeclarations_append :
    Agree (guidDeclarations (tables ++ repeated)) ↔ Agree (guidDeclarations tables) := by
  rw [guidDeclarations_append]
  exact agree_append_iff (repeats_guidDeclarations hrep)

theorem agree_idDeclarations_append :
    Agree (idDeclarations (tables ++ repeated)) ↔ Agree (idDeclarations tables) := by
  rw [idDeclarations_append]
  exact agree_append_iff (repeats_idDeclarations hrep)

/-- The symbols under a GUID are those that were there, and then symbols of repeated tables. -/
theorem symbolsUnder_append (name : String) (k : Constant Guid) :
    symbolsUnder (tables ++ repeated) name k = symbolsUnder tables name k ++
      agreeingWith (guidsOf tables).constants (tablesNamed repeated name) k := by
  rw [symbolsUnder, guidsOf_append hrep, symbolsUnder]
  simp only [tablesNamed, agreeingWith, agreements, Grouping.membersIn, List.filter_append,
    List.flatMap_append, List.map_append]

/-- A symbol that joins those under a GUID was there before, maybe at another path. -/
theorem exists_symbol_of_mem_agreeingWith {name : String} {k : Constant Guid} {g : LocatedGuid}
    (h : g ∈ agreeingWith (guidsOf tables).constants (tablesNamed repeated name) k) :
    ∃ f ∈ symbolsUnder tables name k, f.2 = g.2 := by
  rcases mem_agreeingWith.mp h with ⟨t, ht, _, hg, hkept⟩
  rcases mem_tablesNamed.mp ht with ⟨hmem, hname⟩
  rcases hrep t hmem with ⟨u, hu, hsame⟩
  exact ⟨(u.path, g.2), mem_symbolsUnder.mpr ⟨u, hu, hsame ▸ hname, rfl, hsame ▸ hg, hkept⟩, rfl⟩

theorem exists_symbolsUnder_append (name : String) (k : Constant Guid) :
    (∃ g, g ∈ symbolsUnder (tables ++ repeated) name k) ↔ ∃ g, g ∈ symbolsUnder tables name k := by
  rw [symbolsUnder_append hrep]
  constructor
  · rintro ⟨g, hg⟩
    rcases List.mem_append.mp hg with hg | hg
    · exact ⟨g, hg⟩
    · rcases exists_symbol_of_mem_agreeingWith hrep hg with ⟨f, hf, _⟩
      exact ⟨f, hf⟩
  · rintro ⟨g, hg⟩
    exact ⟨g, List.mem_append_left _ hg⟩

/-- What is declared under the symbols that join a GUID was declared under it before. -/
theorem repeats_idDeclarationsUnder (name : String) (k : Constant Guid) :
    Repeats (idDeclarationsUnder (symbolsUnder tables name k)) (idDeclarationsUnder
      (agreeingWith (guidsOf tables).constants (tablesNamed repeated name) k)) := by
  intro e he
  rcases mem_idDeclarationsUnder.mp he with ⟨g, hg, id, hid, rfl⟩
  rcases exists_symbol_of_mem_agreeingWith hrep hg with ⟨f, hf, hsame⟩
  exact ⟨_, mem_idDeclarationsUnder.mpr ⟨f, hf, id, hsame ▸ hid, rfl⟩, rfl⟩

theorem agree_idDeclarationsUnder_append (name : String) (k : Constant Guid) :
    Agree (idDeclarationsUnder (symbolsUnder (tables ++ repeated) name k)) ↔
      Agree (idDeclarationsUnder (symbolsUnder tables name k)) := by
  rw [symbolsUnder_append hrep, idDeclarationsUnder_append]
  exact agree_append_iff (repeats_idDeclarationsUnder hrep name k)

end Declarations

section Classes

variable {tables repeated : List LocatedTable} (hrep : AlreadyIn tables repeated)

include hrep

theorem guidClass_append (name : String) (k : Constant Guid) :
    guidClass (tables ++ repeated) name k = guidClass tables name k := by
  have hids := constants_append_of_repeats (repeats_idDeclarationsUnder hrep name k)
  rw [← idDeclarationsUnder_append, ← symbolsUnder_append hrep] at hids
  exact congrArg (GuidClass.mk k) hids

/-- A class is not changed by repetitions of its tables. -/
theorem tableClass_append {t : LocatedTable} (ht : t ∈ tables) :
    tableClass (tables ++ repeated) (ofName t.table.name) =
      tableClass tables (ofName t.table.name) := by
  have hguids : (tableClass (tables ++ repeated) (ofName t.table.name)).guids =
      (tableClass tables (ofName t.table.name)).guids := by
    refine eq_of_increasing (increasing_guids_tableClass _ _) (increasing_guids_tableClass _ _) ?_
    intro g
    rw [mem_guids_tableClass, mem_guids_tableClass, exists_symbolsUnder_append hrep,
      guidClass_append hrep]
  -- The class has a table already, and repetitions come behind it.
  have hfirst : (tablesNamed (tables ++ repeated) (ofName t.table.name)).head? =
      (tablesNamed tables (ofName t.table.name)).head? := by
    have hne := List.ne_nil_of_mem (mem_tablesNamed.mpr ⟨ht, rfl⟩)
    rw [tablesNamed, List.filter_append]
    exact List.head?_append_of_ne_nil _ hne
  have hname : (tableClass (tables ++ repeated) (ofName t.table.name)).tableName =
      (tableClass tables (ofName t.table.name)).tableName :=
    congrArg (fun first => (first.map (·.table.name)).getD "") hfirst
  exact congrArg₂ (fun tableName guids =>
    ({ name := ofName t.table.name, tableName := tableName, guids := guids } : TableClass))
    hname hguids

theorem nested_append :
    (TableClass.ofTables (tables ++ repeated)).1 = (TableClass.ofTables tables).1 := by
  refine eq_of_increasing (increasing_ofTables _) (increasing_ofTables _) fun c => ?_
  rw [mem_ofTables, mem_ofTables]
  constructor
  · rintro ⟨t, ht, rfl⟩
    rcases List.mem_append.mp ht with ht | ht
    · exact ⟨t, ht, tableClass_append hrep ht⟩
    · rcases hrep t ht with ⟨u, hu, hsame⟩
      refine ⟨u, hu, ?_⟩
      rw [← hsame]
      exact tableClass_append hrep hu
  · rintro ⟨t, ht, rfl⟩
    exact ⟨t, List.mem_append_left _ ht, (tableClass_append hrep ht).symm⟩

theorem nestedAgree_append : NestedAgree (tables ++ repeated) ↔ NestedAgree tables := by
  constructor
  · intro h
    exact ⟨(agree_guidDeclarations_append hrep).mp h.guids,
      fun name k => (agree_idDeclarationsUnder_append hrep name k).mp (h.ids name k)⟩
  · intro h
    exact ⟨(agree_guidDeclarations_append hrep).mpr h.guids,
      fun name k => (agree_idDeclarationsUnder_append hrep name k).mpr (h.ids name k)⟩

end Classes

/-- Tables that are repeated change nothing in either layout, and bring up no report where there
    was none. -/
theorem classes_append_of_alreadyIn (tables repeated : List LocatedTable)
    (hrep : AlreadyIn tables repeated) :
    (FlatClasses.ofTables (tables ++ repeated)).1 = (FlatClasses.ofTables tables).1 ∧
    (TableClass.ofTables (tables ++ repeated)).1 = (TableClass.ofTables tables).1 ∧
    ((FlatClasses.ofTables (tables ++ repeated)).2 = [] ↔ (FlatClasses.ofTables tables).2 = []) ∧
    ((TableClass.ofTables (tables ++ repeated)).2 = [] ↔ (TableClass.ofTables tables).2 = []) := by
  refine ⟨?_, nested_append hrep, ?_, ?_⟩
  · simp only [FlatClasses.ofTables, guidsOf_append hrep, idsOf_append hrep]
  · rw [flat_silent_iff, flat_silent_iff, agree_guidDeclarations_append hrep,
      agree_idDeclarations_append hrep]
  · rw [nested_silent_iff, nested_silent_iff, nestedAgree_append hrep]

/-- Two tables of one class that contradict each other about a GUID and about an identifier. -/
def quarrellingTables : List LocatedTable :=
  [{ path := "menus.vsct"
     table := ⟨"Menus", [⟨"guidTool", ⟨1⟩, [⟨"Open", 1⟩, ⟨"Open", 2⟩]⟩]⟩ },
   { path := "more/menus.vsct"
     table := ⟨"Menus", [⟨"guidTool", ⟨2⟩, [⟨"Close", 3⟩]⟩, ⟨"Tool", ⟨3⟩, [⟨"Run", 4⟩]⟩]⟩ }]

/-- The second of them again at another path, and then the first. -/
def copiedTables : List LocatedTable :=
  [{ path := "copy/menus.vsct"
     table := ⟨"Menus", [⟨"guidTool", ⟨2⟩, [⟨"Close", 3⟩]⟩, ⟨"Tool", ⟨3⟩, [⟨"Run", 4⟩]⟩]⟩ },
   { path := "menus.vsct"
     table := ⟨"Menus", [⟨"guidTool", ⟨1⟩, [⟨"Open", 1⟩, ⟨"Open", 2⟩]⟩]⟩ }]

/-- The winner does not move when tables that contradict each other are repeated. -/
theorem classes_append_of_alreadyIn_quarrellingTables :
    AlreadyIn quarrellingTables copiedTables ∧
    (TableClass.ofTables quarrellingTables).2 ≠ [] ∧
    (TableClass.ofTables (quarrellingTables ++ copiedTables)).1 =
      (TableClass.ofTables quarrellingTables).1 ∧
    (TableClass.ofTables (quarrellingTables ++ copiedTables)).2 ≠ [] := by
  have hrep : AlreadyIn quarrellingTables copiedTables := by
    unfold AlreadyIn
    decide +kernel
  have habsorbed := classes_append_of_alreadyIn quarrellingTables copiedTables hrep
  have hreports : (TableClass.ofTables quarrellingTables).2 ≠ [] := by decide +kernel
  exact ⟨hrep, hreports, habsorbed.2.1, fun hnone => hreports (habsorbed.2.2.2.mp hnone)⟩

end PackageSymbols

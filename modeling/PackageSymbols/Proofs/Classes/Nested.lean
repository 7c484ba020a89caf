import PackageSymbols.Classes
import PackageSymbols.Proofs.Grouping
import PackageSymbols.Proofs.Merge.Agreement

/-!
# What a Nested Class Holds

The nested layout gathers tables by the identifiers of their names and symbols
by the GUIDs they agree with, and sorts what it gathered. Here the result is told
without either: a class belongs to the tables that share its identifier, and
lists the GUIDs that one of these tables declares with the value that was kept.
Under each of them are the identifiers of exactly those declarations.

Each of the three merges is a merge of declarations that are numbered in the
order of the documents. They are named here, since what can be said about merges
in general is said about declarations.

## Main definitions

* `guidDeclarations`, `idDeclarations`, `idDeclarationsUnder`: What the three
  merges are given.
* `tablesNamed`: The tables whose names lead to one identifier.
* `agreeingWith`, `symbolsUnder`: The symbols of tables that agree with a GUID,
  and those that are under it in a class of the scope.
* `tableClass`, `guidClass`: The class of a name, and the class of a GUID in it.

## Theorems

* `keptGuid?_eq_some_iff`: When a symbol agrees with a GUID that was kept.
* `mem_ofTables`, `mem_guids_tableClass`: The classes of a scope and the classes
  inside them.
* `mem_diagnostics_ofTables`: Where the reports of a scope come from.
* `eq_of_className_eq`: No two classes of a scope share a name.
* `exists_first_of_mem_ofTables`: A class is described by the first of its tables.
* `ofName_tableName`: A class has the identifier of the table that describes it.
-/

namespace PackageSymbols

open Identifier

/-- The declarations of the GUIDs of tables. -/
def guidDeclarations (tables : List LocatedTable) : List (Declaration Guid) :=
  tables.flatMap fun t => t.table.guids.map (declarationOfGuid t.path)

/-- The declarations of the identifiers of tables. -/
def idDeclarations (tables : List LocatedTable) : List (Declaration CommandId) :=
  tables.flatMap fun t => t.table.ids.map (declarationOfId t.path)

/-- The declarations of the identifiers under symbols. -/
def idDeclarationsUnder (guids : List LocatedGuid) : List (Declaration CommandId) :=
  guids.flatMap fun g => g.2.ids.map (declarationOfId g.1)

theorem mem_guidDeclarations {tables : List LocatedTable} {d : Declaration Guid} :
    d ∈ guidDeclarations tables ↔
      ∃ t ∈ tables, ∃ guid ∈ t.table.guids, declarationOfGuid t.path guid = d := by
  simp only [guidDeclarations, List.mem_flatMap, List.mem_map]

theorem mem_idDeclarations {tables : List LocatedTable} {d : Declaration CommandId} :
    d ∈ idDeclarations tables ↔
      ∃ t ∈ tables, ∃ guid ∈ t.table.guids, ∃ id ∈ guid.ids, declarationOfId t.path id = d := by
  simp only [idDeclarations, CommandTable.ids, List.mem_flatMap, List.mem_map]
  constructor
  · rintro ⟨t, ht, id, ⟨guid, hguid, hid⟩, rfl⟩
    exact ⟨t, ht, guid, hguid, id, hid, rfl⟩
  · rintro ⟨t, ht, guid, hguid, id, hid, rfl⟩
    exact ⟨t, ht, id, ⟨guid, hguid, hid⟩, rfl⟩

theorem mem_idDeclarationsUnder {guids : List LocatedGuid} {d : Declaration CommandId} :
    d ∈ idDeclarationsUnder guids ↔
      ∃ g ∈ guids, ∃ id ∈ g.2.ids, declarationOfId g.1 id = d := by
  simp only [idDeclarationsUnder, List.mem_flatMap, List.mem_map]

theorem guidDeclarations_append (tables others : List LocatedTable) :
    guidDeclarations (tables ++ others) = guidDeclarations tables ++ guidDeclarations others :=
  List.flatMap_append

theorem idDeclarations_append (tables others : List LocatedTable) :
    idDeclarations (tables ++ others) = idDeclarations tables ++ idDeclarations others :=
  List.flatMap_append

theorem idDeclarationsUnder_append (guids others : List LocatedGuid) :
    idDeclarationsUnder (guids ++ others) =
      idDeclarationsUnder guids ++ idDeclarationsUnder others :=
  List.flatMap_append

section Symbols

theorem mem_of_keptGuid? {kept : List (Constant Guid)} {guid : GuidSymbol} {k : Constant Guid}
    (h : keptGuid? kept guid = some k) : k ∈ kept :=
  List.mem_of_find?_eq_some (Option.filter_eq_some_iff.mp h).1

theorem name_of_find? {kept : List (Constant Guid)} {name : String} {k : Constant Guid}
    (h : (kept.find? fun c => c.name == name) = some k) : k.name = name := by
  have hname := List.find?_some h
  exact beq_iff_eq.mp hname

/-- A GUID that was kept is found by its name. -/
theorem find?_name_of_mem {tables : List LocatedTable} {k : Constant Guid}
    (hk : k ∈ (guidsOf tables).constants) :
    (guidsOf tables).constants.find? (fun c => c.name == k.name) = some k := by
  cases hfind : (guidsOf tables).constants.find? fun c => c.name == k.name with
  | none => exact absurd (beq_self_eq_true k.name) (List.find?_eq_none.mp hfind k hk)
  | some c =>
      -- The look-up finds a constant of this name, and there is only one.
      exact congrArg some (eq_of_name_eq (List.mem_of_find?_eq_some hfind) hk (name_of_find? hfind))

/-- A symbol agrees with the GUID of its name that was kept if it has its value. -/
theorem keptGuid?_eq_some_iff {tables : List LocatedTable} {guid : GuidSymbol}
    {k : Constant Guid} :
    keptGuid? (guidsOf tables).constants guid = some k ↔
      k ∈ (guidsOf tables).constants ∧ k.name = ofGuidName guid.name ∧ k.value = guid.value := by
  constructor
  · intro h
    rcases Option.filter_eq_some_iff.mp h with ⟨hfind, hvalue⟩
    exact ⟨mem_of_keptGuid? h, name_of_find? hfind, beq_iff_eq.mp hvalue⟩
  · rintro ⟨hmem, hname, hvalue⟩
    have hfind := find?_name_of_mem hmem
    rw [hname] at hfind
    exact Option.filter_eq_some_iff.mpr ⟨hfind, beq_iff_eq.mpr hvalue⟩

/-- The symbols of tables that agree with one of the GUIDs that were kept, each with this GUID. -/
def agreements (kept : List (Constant Guid)) (tables : List LocatedTable) :
    List (Constant Guid × LocatedGuid) :=
  tables.flatMap fun t => t.table.guids.filterMap fun guid =>
    (keptGuid? kept guid).map fun k => (k, (t.path, guid))

theorem mem_agreements {kept : List (Constant Guid)} {tables : List LocatedTable}
    {k : Constant Guid} {g : LocatedGuid} :
    (k, g) ∈ agreements kept tables ↔
      ∃ t ∈ tables, t.path = g.1 ∧ g.2 ∈ t.table.guids ∧ keptGuid? kept g.2 = some k := by
  simp only [agreements, List.mem_flatMap, List.mem_filterMap, Option.map_eq_some_iff,
    Prod.mk.injEq]
  constructor
  · rintro ⟨t, ht, guid, hguid, k', hk, rfl, rfl⟩
    exact ⟨t, ht, rfl, hguid, hk⟩
  · rintro ⟨t, ht, hpath, hguid, hk⟩
    exact ⟨t, ht, g.2, hguid, k, hk, rfl, Prod.ext hpath rfl⟩

/-- The symbols of tables that agree with a GUID. -/
def agreeingWith (kept : List (Constant Guid)) (tables : List LocatedTable) (k : Constant Guid) :
    List LocatedGuid :=
  Grouping.membersIn (agreements kept tables) k

theorem mem_agreeingWith {kept : List (Constant Guid)} {tables : List LocatedTable}
    {k : Constant Guid} {g : LocatedGuid} :
    g ∈ agreeingWith kept tables k ↔
      ∃ t ∈ tables, t.path = g.1 ∧ g.2 ∈ t.table.guids ∧ keptGuid? kept g.2 = some k := by
  rw [agreeingWith, Grouping.mem_membersIn, mem_agreements]

theorem mem_agreeing {kept : List (Constant Guid)} {tables : List LocatedTable}
    {entry : Constant Guid × List LocatedGuid} :
    entry ∈ (agreeing kept tables).entries ↔
      (∃ g, g ∈ agreeingWith kept tables entry.1) ∧ entry.2 = agreeingWith kept tables entry.1 := by
  refine Grouping.mem_entries_ofList.trans (and_congr_left fun _ => ?_)
  rw [List.mem_map]
  constructor
  · rintro ⟨item, hitem, hkey⟩
    exact ⟨item.2, Grouping.mem_membersIn.mpr (hkey ▸ hitem)⟩
  · rintro ⟨g, hg⟩
    exact ⟨(entry.1, g), Grouping.mem_membersIn.mp hg, rfl⟩

/-- Symbols are gathered under constants that were kept. -/
theorem mem_of_mem_agreeing {kept : List (Constant Guid)} {tables : List LocatedTable}
    {entry : Constant Guid × List LocatedGuid} (h : entry ∈ (agreeing kept tables).entries) :
    entry.1 ∈ kept := by
  rcases (mem_agreeing.mp h).1 with ⟨g, hg⟩
  rcases mem_agreeingWith.mp hg with ⟨_, _, _, _, hk⟩
  exact mem_of_keptGuid? hk

end Symbols

section Tables

/-- The tables whose names lead to an identifier. -/
def tablesNamed (tables : List LocatedTable) (name : String) : List LocatedTable :=
  tables.filter fun t => ofName t.table.name == name

theorem mem_tablesNamed {tables : List LocatedTable} {name : String} {t : LocatedTable} :
    t ∈ tablesNamed tables name ↔ t ∈ tables ∧ ofName t.table.name = name := by
  rw [tablesNamed, List.mem_filter, beq_iff_eq]

theorem mem_tablesByIdentifier {tables : List LocatedTable}
    {entry : String × List LocatedTable} :
    entry ∈ (tablesByIdentifier tables).entries ↔
      (∃ t ∈ tables, ofName t.table.name = entry.1) ∧ entry.2 = tablesNamed tables entry.1 := by
  have hmembers : Grouping.membersIn (tables.map fun t => (ofName t.table.name, t)) entry.1 =
      tablesNamed tables entry.1 := Grouping.membersIn_map_key _ tables entry.1
  refine Grouping.mem_entries_ofList.trans ?_
  rw [hmembers, List.map_map, List.mem_map]
  rfl

/-- The class of the tables whose names lead to an identifier. -/
def tableClass (tables : List LocatedTable) (name : String) : TableClass :=
  (TableClass.ofMembers (guidsOf tables).constants name (tablesNamed tables name)).1

/-- There is a class for the identifier of each table, and no other. -/
theorem mem_ofTables {tables : List LocatedTable} {c : TableClass} :
    c ∈ (TableClass.ofTables tables).1 ↔
      ∃ t ∈ tables, c = tableClass tables (ofName t.table.name) := by
  rw [TableClass.ofTables, mem_sortBy, List.map_map, List.mem_map]
  constructor
  · rintro ⟨entry, hentry, rfl⟩
    rcases mem_tablesByIdentifier.mp hentry with ⟨⟨t, ht, hname⟩, hmembers⟩
    refine ⟨t, ht, ?_⟩
    rw [tableClass, hname, ← hmembers]
    rfl
  · rintro ⟨t, ht, rfl⟩
    exact ⟨(ofName t.table.name, tablesNamed tables (ofName t.table.name)),
      mem_tablesByIdentifier.mpr ⟨⟨t, ht, rfl⟩, rfl⟩, rfl⟩

/-- No two classes of a scope share a name. -/
theorem eq_of_className_eq {tables : List LocatedTable} {c e : TableClass}
    (hc : c ∈ (TableClass.ofTables tables).1) (he : e ∈ (TableClass.ofTables tables).1)
    (h : c.name = e.name) : c = e := by
  rcases mem_ofTables.mp hc with ⟨t, _, rfl⟩
  rcases mem_ofTables.mp he with ⟨u, _, rfl⟩
  have hname : ofName t.table.name = ofName u.table.name := h
  rw [hname]

/-- A class is described by the first of its tables, and there is one. -/
theorem exists_first_of_mem_ofTables {tables : List LocatedTable} {c : TableClass}
    (h : c ∈ (TableClass.ofTables tables).1) :
    ∃ first, (tablesNamed tables c.name).head? = some first ∧ c.tableName = first.table.name := by
  rcases mem_ofTables.mp h with ⟨t, ht, rfl⟩
  have hmem : t ∈ tablesNamed tables (ofName t.table.name) := mem_tablesNamed.mpr ⟨ht, rfl⟩
  cases hmembers : tablesNamed tables (ofName t.table.name) with
  | nil => exact absurd (hmembers ▸ hmem) List.not_mem_nil
  | cons first rest =>
      refine ⟨first, congrArg List.head? hmembers, ?_⟩
      rw [tableClass, TableClass.ofMembers, hmembers]
      rfl

/-- A class has the identifier of the name that describes it. -/
theorem ofName_tableName {tables : List LocatedTable} {c : TableClass}
    (h : c ∈ (TableClass.ofTables tables).1) : ofName c.tableName = c.name := by
  rcases exists_first_of_mem_ofTables h with ⟨first, hfirst, hname⟩
  rw [hname]
  exact (mem_tablesNamed.mp (List.mem_of_head? hfirst)).2

end Tables

section Members

/-- The symbols of a scope under a GUID in the class of a name. -/
def symbolsUnder (tables : List LocatedTable) (name : String) (k : Constant Guid) :
    List LocatedGuid :=
  agreeingWith (guidsOf tables).constants (tablesNamed tables name) k

theorem mem_symbolsUnder {tables : List LocatedTable} {name : String} {k : Constant Guid}
    {g : LocatedGuid} :
    g ∈ symbolsUnder tables name k ↔
      ∃ t ∈ tables, ofName t.table.name = name ∧ t.path = g.1 ∧ g.2 ∈ t.table.guids ∧
        keptGuid? (guidsOf tables).constants g.2 = some k := by
  simp only [symbolsUnder, mem_agreeingWith, mem_tablesNamed, and_assoc]

/-- The class of a GUID in the class of a name. -/
def guidClass (tables : List LocatedTable) (name : String) (k : Constant Guid) : GuidClass where
  guid := k
  ids := (idsUnder (symbolsUnder tables name k)).constants

/-- A class lists the GUIDs that its tables agree with, and under each the identifiers of the
    symbols that do. -/
theorem mem_guids_tableClass {tables : List LocatedTable} {name : String} {g : GuidClass} :
    g ∈ (tableClass tables name).guids ↔
      (∃ symbol, symbol ∈ symbolsUnder tables name g.guid) ∧ g = guidClass tables name g.guid := by
  rw [tableClass, TableClass.ofMembers, mem_sortBy, List.map_map, List.mem_map]
  constructor
  · rintro ⟨entry, hentry, rfl⟩
    rcases mem_agreeing.mp hentry with ⟨hsome, hmembers⟩
    refine ⟨hsome, ?_⟩
    exact congrArg (fun members => (⟨entry.1, (idsUnder members).constants⟩ : GuidClass)) hmembers
  · rintro ⟨hsome, hg⟩
    rw [hg]
    exact ⟨(g.guid, symbolsUnder tables name g.guid), mem_agreeing.mpr ⟨hsome, rfl⟩, rfl⟩

/-- A symbol that agrees with a GUID brings it into the class of its table. -/
theorem mem_classes_of_symbol {tables : List LocatedTable} {name : String} {k : Constant Guid}
    {symbol : LocatedGuid} (h : symbol ∈ symbolsUnder tables name k) :
    tableClass tables name ∈ (TableClass.ofTables tables).1 ∧
      guidClass tables name k ∈ (tableClass tables name).guids := by
  rcases mem_symbolsUnder.mp h with ⟨t, ht, rfl, _⟩
  exact ⟨mem_ofTables.mpr ⟨t, ht, rfl⟩, mem_guids_tableClass.mpr ⟨⟨symbol, h⟩, rfl⟩⟩

/-- The nested layout reports what the merge of the GUIDs reports, and what the merges of the
    identifiers under the GUIDs of its classes report. -/
theorem mem_diagnostics_ofTables {tables : List LocatedTable} {report : Diagnostic}
    (h : report ∈ (TableClass.ofTables tables).2) :
    report ∈ (guidsOf tables).diagnostics ∨
      ∃ name k, report ∈ (idsUnder (symbolsUnder tables name k)).diagnostics := by
  rw [TableClass.ofTables, List.mem_append, List.flatMap_map] at h
  rcases h with h | h
  · exact Or.inl h
  · rcases List.mem_flatMap.mp h with ⟨entry, hentry, hreport⟩
    rw [(mem_tablesByIdentifier.mp hentry).2, TableClass.ofMembers, List.flatMap_map] at hreport
    rcases List.mem_flatMap.mp hreport with ⟨gathered, hgathered, hreport⟩
    rw [(mem_agreeing.mp hgathered).2] at hreport
    exact Or.inr ⟨entry.1, gathered.1, hreport⟩

end Members

end PackageSymbols

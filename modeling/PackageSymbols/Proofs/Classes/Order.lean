import PackageSymbols.Proofs.Classes.Nested
import PackageSymbols.Proofs.Merge.Order

/-!
# Classes Without the Order of Documents

Where nothing in a scope is in conflict, its classes can be told from the set of
its tables. Each merge is silent then, and keeps the same whatever the order of
its declarations is; lists are told in the order of names, which have nothing to
do with the order of documents either. One thing is left in the nested layout: a
class is described by the name of the first of its tables. So tables that share
a class have to share their name as well.

A scope of the nested layout has a merge for each of its classes and each GUID
in it, and all of them have to be silent. `NestedAgree` says what this takes of
the declarations.

## Main definitions

* `NestedAgree`: Nothing is in conflict in the nested layout.
* `NamedAlike`: Tables that share a class share their name.

## Theorems

* `nested_silent_iff`, `flat_silent_iff`: A layout is silent exactly when nothing
  is in conflict.
* `increasing_guids_tableClass`, `increasing_ofTables`: Classes are told in the
  strict order of their names.
* `ofTables_eq_of_mem_iff`, `flat_eq_of_mem_iff`: Without conflicts, the same
  tables have the same classes.
-/

namespace PackageSymbols

open Identifier

/-- Whether the GUIDs of a scope agree, and so do the identifiers under each GUID in each class. -/
structure NestedAgree (tables : List LocatedTable) : Prop where
  /-- The GUIDs agree over the whole scope. -/
  guids : Agree (guidDeclarations tables)
  /-- The identifiers agree under each GUID in each class. -/
  ids : ∀ name k, Agree (idDeclarationsUnder (symbolsUnder tables name k))

/-- Whether tables that share a class share their name. -/
def NamedAlike (tables : List LocatedTable) : Prop :=
  ∀ t ∈ tables, ∀ u ∈ tables, ofName t.table.name = ofName u.table.name →
    t.table.name = u.table.name

section Reports

variable {tables : List LocatedTable}

/-- What is reported under a GUID in a class is reported by the scope. -/
theorem mem_diagnostics_of_mem_idsUnder {name : String} {k : Constant Guid} {report : Diagnostic}
    (h : report ∈ (idsUnder (symbolsUnder tables name k)).diagnostics) :
    report ∈ (TableClass.ofTables tables).2 := by
  -- Something was declared there, so the class and the GUID in it exist.
  have hsome : ∃ symbol, symbol ∈ symbolsUnder tables name k := by
    cases hsymbols : symbolsUnder tables name k with
    | nil =>
        rw [hsymbols] at h
        exact absurd h List.not_mem_nil
    | cons symbol rest => exact ⟨symbol, List.mem_cons_self⟩
  have hclass : (name, tablesNamed tables name) ∈ (tablesByIdentifier tables).entries := by
    rcases hsome with ⟨symbol, hsymbol⟩
    rcases mem_symbolsUnder.mp hsymbol with ⟨t, ht, hname, _⟩
    exact mem_tablesByIdentifier.mpr ⟨⟨t, ht, hname⟩, rfl⟩
  have hguid : (k, symbolsUnder tables name k) ∈
      (agreeing (guidsOf tables).constants (tablesNamed tables name)).entries :=
    mem_agreeing.mpr ⟨hsome, rfl⟩
  rw [TableClass.ofTables, List.mem_append, List.flatMap_map]
  refine Or.inr (List.mem_flatMap.mpr ⟨_, hclass, ?_⟩)
  rw [TableClass.ofMembers, List.flatMap_map]
  exact List.mem_flatMap.mpr ⟨_, hguid, h⟩

/-- The nested layout reports nothing exactly when nothing is in conflict. -/
theorem nested_silent_iff : (TableClass.ofTables tables).2 = [] ↔ NestedAgree tables := by
  constructor
  · intro hsilent
    refine ⟨(merge_silent_iff _).mp ?_, fun name k => (merge_silent_iff _).mp ?_⟩
    · exact (List.append_eq_nil_iff.mp hsilent).1
    · refine List.eq_nil_iff_forall_not_mem.mpr (fun report hreport => ?_)
      have hmem := mem_diagnostics_of_mem_idsUnder hreport
      rw [hsilent] at hmem
      exact List.not_mem_nil hmem
  · intro hagree
    have hguids : (guidsOf tables).diagnostics = [] := (merge_silent_iff _).mpr hagree.guids
    -- A report of any merge would be one of the resolution.
    refine List.eq_nil_iff_forall_not_mem.mpr (fun report hreport => ?_)
    rcases mem_diagnostics_ofTables hreport with hmem | ⟨name, k, hmem⟩
    · rw [hguids] at hmem
      exact List.not_mem_nil hmem
    · have hids : (idsUnder (symbolsUnder tables name k)).diagnostics = [] :=
        (merge_silent_iff _).mpr (hagree.ids name k)
      rw [hids] at hmem
      exact List.not_mem_nil hmem

/-- The flat layout reports nothing exactly when nothing is in conflict. -/
theorem flat_silent_iff : (FlatClasses.ofTables tables).2 = [] ↔
    Agree (guidDeclarations tables) ∧ Agree (idDeclarations tables) := by
  refine List.append_eq_nil_iff.trans ?_
  exact and_congr (merge_silent_iff (guidDeclarations tables))
    (merge_silent_iff (idDeclarations tables))

end Reports

section Increasing

/-- The GUIDs of a class are told in the strict order of their names. -/
theorem increasing_guids_tableClass (tables : List LocatedTable) (name : String) :
    (tableClass tables name).guids.Pairwise fun a b => a.guid.name < b.guid.name := by
  rw [tableClass, TableClass.ofMembers]
  refine increasing_sortBy ?_
  -- Each GUID that was kept has one group, and no two that were kept share a name.
  simp only [List.map_map]
  have hkeys : ((agreeing (guidsOf tables).constants (tablesNamed tables name)).entries.map
      Prod.fst).Nodup := Grouping.nodup_keys_ofList _
  refine List.Nodup.map_on ?_ (List.Nodup.of_map Prod.fst hkeys)
  intro a ha b hb hname
  exact List.inj_on_of_nodup_map hkeys ha hb
    (eq_of_name_eq (mem_of_mem_agreeing ha) (mem_of_mem_agreeing hb) hname)

/-- The classes of a scope are told in the strict order of their names. -/
theorem increasing_ofTables (tables : List LocatedTable) :
    (TableClass.ofTables tables).1.Pairwise fun a b => a.name < b.name := by
  rw [TableClass.ofTables]
  refine increasing_sortBy ?_
  simp only [List.map_map]
  -- The name of a class is the identifier under which its tables were gathered.
  have hkeys : ((tablesByIdentifier tables).entries.map Prod.fst).Nodup :=
    Grouping.nodup_keys_ofList _
  exact hkeys

end Increasing

section Same

variable {tables others : List LocatedTable} (hsame : ∀ t, t ∈ tables ↔ t ∈ others)

include hsame

theorem mem_guidDeclarations_congr (d : Declaration Guid) :
    d ∈ guidDeclarations tables ↔ d ∈ guidDeclarations others := by
  simp only [mem_guidDeclarations, hsame]

theorem mem_idDeclarations_congr (d : Declaration CommandId) :
    d ∈ idDeclarations tables ↔ d ∈ idDeclarations others := by
  simp only [mem_idDeclarations, hsame]

theorem guidsOf_eq_of_agree (h : Agree (guidDeclarations tables)) :
    (guidsOf tables).constants = (guidsOf others).constants :=
  constants_eq_of_mem_iff h.unambiguous (mem_guidDeclarations_congr hsame)

theorem mem_symbolsUnder_congr (h : Agree (guidDeclarations tables)) (name : String)
    (k : Constant Guid) (g : LocatedGuid) :
    g ∈ symbolsUnder tables name k ↔ g ∈ symbolsUnder others name k := by
  simp only [mem_symbolsUnder, hsame, guidsOf_eq_of_agree hsame h]

theorem mem_idDeclarationsUnder_congr (h : Agree (guidDeclarations tables)) (name : String)
    (k : Constant Guid) (d : Declaration CommandId) :
    d ∈ idDeclarationsUnder (symbolsUnder tables name k) ↔
      d ∈ idDeclarationsUnder (symbolsUnder others name k) := by
  simp only [mem_idDeclarationsUnder, mem_symbolsUnder_congr hsame h]

/-- Nothing comes into conflict when the same tables come in another order. -/
theorem NestedAgree.of_mem_iff (h : NestedAgree tables) : NestedAgree others :=
  ⟨h.guids.of_mem_iff (mem_guidDeclarations_congr hsame), fun name k =>
    (h.ids name k).of_mem_iff (mem_idDeclarationsUnder_congr hsame h.guids name k)⟩

theorem guidClass_eq_of_agree (h : NestedAgree tables) (name : String) (k : Constant Guid) :
    guidClass tables name k = guidClass others name k := by
  have hids : (idsUnder (symbolsUnder tables name k)).constants =
      (idsUnder (symbolsUnder others name k)).constants :=
    constants_eq_of_mem_iff (h.ids name k).unambiguous
      (mem_idDeclarationsUnder_congr hsame h.guids name k)
  rw [guidClass, guidClass, hids]

theorem guids_tableClass_eq_of_agree (h : NestedAgree tables) (name : String) :
    (tableClass tables name).guids = (tableClass others name).guids := by
  refine eq_of_increasing (increasing_guids_tableClass tables name)
    (increasing_guids_tableClass others name) (fun g => ?_)
  simp only [mem_guids_tableClass, mem_symbolsUnder_congr hsame h.guids,
    guidClass_eq_of_agree hsame h]

omit hsame in
/-- A class is described by the name of any of its tables, if they share it. -/
theorem tableName_tableClass (hnames : NamedAlike tables) {t : LocatedTable} (ht : t ∈ tables) :
    (tableClass tables (ofName t.table.name)).tableName = t.table.name := by
  rcases exists_first_of_mem_ofTables (mem_ofTables.mpr ⟨t, ht, rfl⟩) with ⟨first, hfirst, hname⟩
  rcases mem_tablesNamed.mp (List.mem_of_head? hfirst) with ⟨hmem, hsame⟩
  exact hname.trans (hnames first hmem t ht hsame)

theorem NamedAlike.of_mem_iff (h : NamedAlike tables) : NamedAlike others :=
  fun t ht u hu => h t ((hsame t).mpr ht) u ((hsame u).mpr hu)

theorem tableClass_eq_of_agree (h : NestedAgree tables) (hnames : NamedAlike tables)
    {t : LocatedTable} (ht : t ∈ tables) :
    tableClass tables (ofName t.table.name) = tableClass others (ofName t.table.name) := by
  have hname : (tableClass tables (ofName t.table.name)).tableName =
      (tableClass others (ofName t.table.name)).tableName := by
    rw [tableName_tableClass hnames ht,
      tableName_tableClass (hnames.of_mem_iff hsame) ((hsame t).mp ht)]
  have hguids := guids_tableClass_eq_of_agree hsame h (ofName t.table.name)
  exact congrArg₂ (fun tableName guids =>
    ({ name := ofName t.table.name, tableName := tableName, guids := guids } : TableClass))
    hname hguids

/-- Without conflicts, the same tables have the same classes in the nested layout, provided that
    tables which share a class share their name. -/
theorem ofTables_eq_of_mem_iff (hsilent : (TableClass.ofTables tables).2 = [])
    (hnames : NamedAlike tables) : TableClass.ofTables others = TableClass.ofTables tables := by
  have hagree := nested_silent_iff.mp hsilent
  have hother : (TableClass.ofTables others).2 = [] :=
    nested_silent_iff.mpr (hagree.of_mem_iff hsame)
  refine Prod.ext ?_ (hother.trans hsilent.symm)
  refine eq_of_increasing (increasing_ofTables others) (increasing_ofTables tables) (fun c => ?_)
  rw [mem_ofTables, mem_ofTables]
  constructor
  · rintro ⟨t, ht, rfl⟩
    exact ⟨t, (hsame t).mpr ht,
      (tableClass_eq_of_agree hsame hagree hnames ((hsame t).mpr ht)).symm⟩
  · rintro ⟨t, ht, rfl⟩
    exact ⟨t, (hsame t).mp ht, tableClass_eq_of_agree hsame hagree hnames ht⟩

/-- Without conflicts, the same tables have the same classes in the flat layout. -/
theorem flat_eq_of_mem_iff (hsilent : (FlatClasses.ofTables tables).2 = []) :
    FlatClasses.ofTables others = FlatClasses.ofTables tables := by
  rcases flat_silent_iff.mp hsilent with ⟨hguids, hids⟩
  have hother : (FlatClasses.ofTables others).2 = [] :=
    flat_silent_iff.mpr ⟨hguids.of_mem_iff (mem_guidDeclarations_congr hsame),
      hids.of_mem_iff (mem_idDeclarations_congr hsame)⟩
  have hidsEq : (idsOf tables).constants = (idsOf others).constants :=
    constants_eq_of_mem_iff hids.unambiguous (mem_idDeclarations_congr hsame)
  refine Prod.ext ?_ (hother.trans hsilent.symm)
  simp only [FlatClasses.ofTables, guidsOf_eq_of_agree hsame hguids, hidsEq]

end Same

end PackageSymbols

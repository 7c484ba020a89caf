import PackageSymbols.Proofs.Classes.Order

/-!
# The Two Layouts Agree

The flat layout merges all identifiers of a scope at once, the nested layout
merges them class by class after it gathered tables and left out symbols that
disagree with a GUID that was kept. Both list the same GUIDs: the declaration
that a GUID was kept from agrees with it, so the class of its table lists it,
and no class lists anything that was not kept.

Identifiers are another matter, since a conflict that the flat layout reports
may be none in the nested one. Without conflicts in the flat layout the two
agree on them as well. Then every symbol agrees with its GUID, so no declaration
of an identifier is left out, and declarations that agree altogether agree in
every part.

## Theorems

* `mem_nested_guids`: The nested classes list the GUIDs that were kept.
* `silent_of_agree`: Identifiers that agree cause no report in any class.
* `mem_nested_ids`: Without conflicts, the nested classes list every identifier.
* `conflictingSymbol_of_mem_nested`, `conflictingSymbol_of_mem_flat`: What the
  layouts report.
* `layouts_agree`: The two layouts agree.
-/

namespace PackageSymbols

open Identifier

section Guids

variable {tables : List LocatedTable}

/-- The GUIDs that the nested classes list are those that were kept. -/
theorem mem_nested_guids {k : Constant Guid} :
    (∃ c ∈ (TableClass.ofTables tables).1, ∃ g ∈ c.guids, g.guid = k) ↔
      k ∈ (guidsOf tables).constants := by
  constructor
  · rintro ⟨c, hc, g, hg, rfl⟩
    rcases mem_ofTables.mp hc with ⟨t, _, rfl⟩
    rcases (mem_guids_tableClass.mp hg).1 with ⟨symbol, hsymbol⟩
    rcases mem_symbolsUnder.mp hsymbol with ⟨_, _, _, _, _, hk⟩
    exact mem_of_keptGuid? hk
  · intro hk
    -- The declaration that was kept has the name and the value of the GUID.
    rcases exists_declaration_of_mem (guidDeclarations tables) hk with ⟨d, hd, hkey, hvalue⟩
    rcases mem_guidDeclarations.mp hd with ⟨t, ht, guid, hguid, rfl⟩
    have hkept : keptGuid? (guidsOf tables).constants guid = some k :=
      keptGuid?_eq_some_iff.mpr ⟨hk, hkey.symm, hvalue.symm⟩
    have hsymbol : (t.path, guid) ∈ symbolsUnder tables (ofName t.table.name) k :=
      mem_symbolsUnder.mpr ⟨t, ht, rfl, rfl, hguid, hkept⟩
    rcases mem_classes_of_symbol hsymbol with ⟨hc, hg⟩
    exact ⟨_, hc, _, hg, rfl⟩

/-- Where the declarations of GUIDs agree, every symbol agrees with its GUID. -/
theorem exists_keptGuid?_of_agree (h : Agree (guidDeclarations tables)) {t : LocatedTable}
    (ht : t ∈ tables) {guid : GuidSymbol} (hguid : guid ∈ t.table.guids) :
    ∃ k, keptGuid? (guidsOf tables).constants guid = some k := by
  rcases h.exists_constant (mem_guidDeclarations.mpr ⟨t, ht, guid, hguid, rfl⟩) with
    ⟨k, hk, hname, hvalue⟩
  exact ⟨k, keptGuid?_eq_some_iff.mpr ⟨hk, hname, hvalue⟩⟩

end Guids

section Ids

variable {tables : List LocatedTable}

/-- What is declared under the symbols of a class is declared in the scope. -/
theorem idDeclarationsUnder_subset {name : String} {k : Constant Guid} :
    idDeclarationsUnder (symbolsUnder tables name k) ⊆ idDeclarations tables := by
  intro d hd
  rcases mem_idDeclarationsUnder.mp hd with ⟨⟨path, guid⟩, hsymbol, id, hid, rfl⟩
  rcases mem_symbolsUnder.mp hsymbol with ⟨t, ht, _, rfl, hguid, _⟩
  exact mem_idDeclarations.mpr ⟨t, ht, guid, hguid, id, hid, rfl⟩

/-- Where nothing is in conflict in the scope, nothing is in any of its classes. -/
theorem silent_of_agree (hguids : Agree (guidDeclarations tables))
    (hids : Agree (idDeclarations tables)) : (TableClass.ofTables tables).2 = [] :=
  nested_silent_iff.mpr ⟨hguids, fun _ _ => hids.of_subset idDeclarationsUnder_subset⟩

/-- Where nothing is in conflict, the nested classes list the identifiers of the scope. -/
theorem mem_nested_ids (hguids : Agree (guidDeclarations tables))
    (hids : Agree (idDeclarations tables)) {name : String} {value : CommandId} :
    (∃ c ∈ (TableClass.ofTables tables).1, ∃ g ∈ c.guids, ∃ id ∈ g.ids,
        id.name = name ∧ id.value = value) ↔
      ∃ id ∈ (idsOf tables).constants, id.name = name ∧ id.value = value := by
  constructor
  · rintro ⟨c, hc, g, hg, id, hid, rfl, rfl⟩
    rcases mem_ofTables.mp hc with ⟨t, _, rfl⟩
    rw [(mem_guids_tableClass.mp hg).2, guidClass] at hid
    rcases exists_declaration_of_mem _ hid with ⟨d, hd, hkey, hvalue⟩
    rcases hids.exists_constant (idDeclarationsUnder_subset hd) with ⟨e, he, hname, heq⟩
    exact ⟨e, he, hname.trans hkey, heq.trans hvalue⟩
  · rintro ⟨id, hid, rfl, rfl⟩
    rcases exists_declaration_of_mem (idDeclarations tables) hid with ⟨d, hd, hkey, hvalue⟩
    rcases mem_idDeclarations.mp hd with ⟨t, ht, guid, hguid, i, hi, rfl⟩
    -- The symbol around it agrees with its GUID, so it is in the class of its table.
    rcases exists_keptGuid?_of_agree hguids ht hguid with ⟨k, hk⟩
    have hsymbol : (t.path, guid) ∈ symbolsUnder tables (ofName t.table.name) k :=
      mem_symbolsUnder.mpr ⟨t, ht, rfl, rfl, hguid, hk⟩
    have hdeclared := mem_idDeclarationsUnder.mpr ⟨_, hsymbol, i, hi, rfl⟩
    rcases (hids.of_subset idDeclarationsUnder_subset).exists_constant hdeclared with
      ⟨e, he, hname, heq⟩
    rcases mem_classes_of_symbol hsymbol with ⟨hc, hg⟩
    exact ⟨_, hc, _, hg, e, he, hname.trans hkey, heq.trans hvalue⟩

end Ids

section Reports

variable {tables : List LocatedTable} {report : Diagnostic}

/-- The nested layout reports nothing but conflicts between symbols. -/
theorem conflictingSymbol_of_mem_nested (h : report ∈ (TableClass.ofTables tables).2) :
    ∃ written, report.problem = .conflictingSymbol written := by
  rcases mem_diagnostics_ofTables h with hmem | ⟨_, _, hmem⟩
  · exact conflictingSymbol_of_mem_merge hmem
  · exact conflictingSymbol_of_mem_merge hmem

theorem conflictingSymbol_of_mem_flat (h : report ∈ (FlatClasses.ofTables tables).2) :
    ∃ written, report.problem = .conflictingSymbol written := by
  rcases List.mem_append.mp h with hmem | hmem
  · exact conflictingSymbol_of_mem_merge hmem
  · exact conflictingSymbol_of_mem_merge hmem

end Reports

/-- The two layouts list the same GUIDs. A scope without conflicts in the flat layout has none in
    the nested one, and both list the same identifiers. -/
theorem layouts_agree (tables : List LocatedTable) :
    (∀ guid : Constant Guid,
      (∃ c ∈ (TableClass.ofTables tables).1, ∃ g ∈ c.guids, g.guid = guid) ↔
        guid ∈ (FlatClasses.ofTables tables).1.guids) ∧
    (guidsOf tables).diagnostics <+: (TableClass.ofTables tables).2 ∧
    ((FlatClasses.ofTables tables).2 = [] →
      (TableClass.ofTables tables).2 = [] ∧
      ∀ (name : String) (value : CommandId),
        (∃ c ∈ (TableClass.ofTables tables).1, ∃ g ∈ c.guids, ∃ id ∈ g.ids,
            id.name = name ∧ id.value = value) ↔
          ∃ id ∈ (FlatClasses.ofTables tables).1.ids, id.name = name ∧ id.value = value) := by
  refine ⟨fun _ => mem_nested_guids, List.prefix_append _ _, ?_⟩
  intro hsilent
  rcases List.append_eq_nil_iff.mp hsilent with ⟨hguids, hids⟩
  have hguids : Agree (guidDeclarations tables) := (merge_silent_iff _).mp hguids
  have hids : Agree (idDeclarations tables) := (merge_silent_iff _).mp hids
  exact ⟨silent_of_agree hguids hids, fun _ _ => mem_nested_ids hguids hids⟩

/-- Two tables that declare the same GUID with identifiers that do not conflict. -/
def sharingTables : List LocatedTable :=
  [{ path := "menus.vsct"
     table := ⟨"Menus", [⟨"guidShared", ⟨1⟩, [⟨"Open", 1⟩, ⟨"Close", 2⟩]⟩]⟩ },
   { path := "tools.vsct"
     table := ⟨"Tools", [⟨"guidShared", ⟨1⟩, [⟨"Open", 1⟩, ⟨"Run", 3⟩]⟩, ⟨"guidOwn", ⟨2⟩, []⟩]⟩ }]

/-- The identifiers of a GUID that two tables share are all in the nested layout, without a
    report. -/
theorem layouts_agree_sharingTables :
    (FlatClasses.ofTables sharingTables).2 = [] ∧ (TableClass.ofTables sharingTables).2 = [] ∧
    ∃ c ∈ (TableClass.ofTables sharingTables).1, ∃ g ∈ c.guids, ∃ id ∈ g.ids,
      id.name = "Run" ∧ id.value = 3 := by
  have hsilent : (FlatClasses.ofTables sharingTables).2 = [] := by decide +kernel
  have hagree := (layouts_agree sharingTables).2.2 hsilent
  exact ⟨hsilent, hagree.1, (hagree.2 "Run" 3).mpr ⟨⟨"Run", "Run", 3⟩, by decide +kernel, rfl, rfl⟩⟩

end PackageSymbols

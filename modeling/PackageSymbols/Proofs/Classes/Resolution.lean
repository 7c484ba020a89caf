import PackageSymbols.Proofs.Classes.Order

/-!
# The Classes of the Nested Layout, From the Tables Alone

Classes come out of four passes: GUIDs are merged, tables are gathered by the
identifiers of their names, symbols are gathered by the GUIDs they agree with,
and what was gathered is merged once more, class by class and GUID by GUID. Two
sorts stand behind that. `IsNestedResolution` says what the result has to be
without any of the passes but the merges. A symbol has won if it has the value
that was kept for its key, `winningSymbols` lists the symbols of a class that
did, and everything else is read off this list.

The classes are told in the order of their names, the reports are not. They come
in the order of the passes, so a class reports when its identifier first comes
up, and a key in it when the first symbol of the class wins under this key. A
symbol that lost does not count there, since it was never gathered.

Symbols are gathered under the GUID itself here, and a key stands for it in the
list of those that won. No two GUIDs that were kept share a key, so one can stand
in for the other, and the groups and their order stay the same.

## Main definitions

* `hasWon`: Whether a symbol has the value that was kept for its key.
* `winningSymbols`, `winningSymbolsOf`: The symbols of a class that won, and those
  of one key.
* `IsNestedResolution`: What the classes and the reports of a scope must be.
* `FindsAll`: Every look-up on the way to the classes finds what it looks for.

## Theorems

* `map_agreements`: The symbols that agree with a GUID are those that won.
* `symbolsUnder_eq`, `entries_agreeing`: So the groups under the GUIDs are those
  under the keys.
* `traced_of_mem_ids`, `conflict_of_mem_reports`: Where identifiers and reports
  come from.
* `isNestedResolution_ofTables`: The nested layout is what it must be.
-/

namespace PackageSymbols

open Identifier

/-- Whether a symbol has the value that was kept for its key. -/
def hasWon (tables : List LocatedTable) (guid : GuidSymbol) : Bool :=
  (guidsOf tables).constants.any fun k =>
    k.name == ofGuidName guid.name && k.value == guid.value

/-- The symbols of the class of a name that won, in the order of the documents. -/
def winningSymbols (tables : List LocatedTable) (name : String) : List LocatedGuid :=
  (tablesNamed tables name).flatMap fun t =>
    (t.table.guids.filter (hasWon tables)).map fun guid => (t.path, guid)

/-- Those of them that are declared under a key. -/
def winningSymbolsOf (tables : List LocatedTable) (name key : String) : List LocatedGuid :=
  (winningSymbols tables name).filter fun g => ofGuidName g.2.name == key

/-- What the classes and the reports of a scope in the nested layout must be. -/
structure IsNestedResolution (tables : List LocatedTable) (classes : List TableClass)
    (reports : Diagnostics) : Prop where
  /-- No class comes twice, and classes are told in the order of their names. -/
  increasing : (classes.map (·.name)).Pairwise (· < ·)
  /-- There is a class for the identifier of each table, and no other. -/
  names : ∀ name, name ∈ classes.map (·.name) ↔ name ∈ tables.map fun t => ofName t.table.name
  /-- A class is described by the name of the first table of its identifier. -/
  described : ∀ c ∈ classes, ∃ first,
    tables.find? (fun t => ofName t.table.name == c.name) = some first ∧
      c.tableName = first.table.name
  /-- No key comes twice in a class, and keys are told in their order. -/
  increasing_keys : ∀ c ∈ classes, (c.guids.map (·.guid.name)).Pairwise (· < ·)
  /-- A key is listed exactly when a table of the class declares it with the value kept. -/
  keys : ∀ c ∈ classes, ∀ key, key ∈ c.guids.map (·.guid.name) ↔
    ∃ t ∈ tables, ofName t.table.name = c.name ∧ ∃ symbol ∈ t.table.guids,
      ofGuidName symbol.name = key ∧
        ∃ k ∈ (guidsOf tables).constants, k.name = key ∧ k.value = symbol.value
  /-- What is listed under a key is the GUID that was kept for it. -/
  winners : ∀ c ∈ classes, ∀ g ∈ c.guids, g.guid ∈ (guidsOf tables).constants
  /-- Under it are the identifiers of the symbols of the class that won under the key. -/
  ids : ∀ c ∈ classes, ∀ g ∈ c.guids,
    g.ids = (idsUnder (winningSymbolsOf tables c.name g.guid.name)).constants
  /-- So each is declared in the class, under a symbol with the key and the value of the GUID. -/
  traced : ∀ c ∈ classes, ∀ g ∈ c.guids, ∀ id ∈ g.ids,
    ∃ t ∈ tables, ofName t.table.name = c.name ∧ ∃ symbol ∈ t.table.guids,
      ofGuidName symbol.name = g.guid.name ∧ symbol.value = g.guid.value ∧
        ∃ i ∈ symbol.ids, ofName i.name = id.name ∧ i.name = id.written ∧ i.value = id.value
  /-- GUIDs report first, and then each key of each class, as classes and keys come up. -/
  order : reports = (guidsOf tables).diagnostics ++
    (tables.map fun t => ofName t.table.name).eraseDups.flatMap fun name =>
      ((winningSymbols tables name).map fun g => ofGuidName g.2.name).eraseDups.flatMap fun key =>
        (idsUnder (winningSymbolsOf tables name key)).diagnostics
  /-- Identifiers are only refused for another one under the same GUID in the same class. -/
  conflicts : ∀ report ∈ reports, report ∈ (guidsOf tables).diagnostics ∨
    ∃ c ∈ classes, ∃ g ∈ c.guids,
      ∃ d ∈ idDeclarationsUnder (winningSymbolsOf tables c.name g.guid.name),
      ∃ e ∈ idDeclarationsUnder (winningSymbolsOf tables c.name g.guid.name),
        d.key = e.key ∧ d.value ≠ e.value ∧ report = d.refusal

/-- Whether every look-up on the way to the classes of a scope finds what it looks for. -/
structure FindsAll (tables : List LocatedTable) : Prop where
  /-- The key of every symbol has a GUID that was kept. -/
  keys : ∀ t ∈ tables, ∀ symbol ∈ t.table.guids, ∃ k,
    (guidsOf tables).constants.find? (fun c => c.name == ofGuidName symbol.name) = some k
  /-- Tables that were gathered have a first one. -/
  first : ∀ gathered ∈ (tablesByIdentifier tables).entries, ∃ t, gathered.2.head? = some t
  /-- What symbols were gathered under is found again by its key. -/
  gathered : ∀ gathered ∈ (tablesByIdentifier tables).entries,
    ∀ entry ∈ (agreeing (guidsOf tables).constants gathered.2).entries,
      (guidsOf tables).constants.find? (fun c => c.name == entry.1.name) = some entry.1

section Winning

variable {tables : List LocatedTable}

theorem hasWon_iff {guid : GuidSymbol} :
    hasWon tables guid = true ↔ ∃ k, keptGuid? (guidsOf tables).constants guid = some k := by
  simp only [hasWon, List.any_eq_true, Bool.and_eq_true, beq_iff_eq, keptGuid?_eq_some_iff]

/-- The GUID that a symbol agrees with, told by its key. -/
theorem map_keptGuid? (path : String) (guid : GuidSymbol) :
    ((keptGuid? (guidsOf tables).constants guid).map fun k => (k.name, (path, guid))) =
      if hasWon tables guid then some (ofGuidName guid.name, (path, guid)) else none := by
  cases hk : keptGuid? (guidsOf tables).constants guid with
  | none =>
      have hlost : ¬ hasWon tables guid = true := by
        intro hwon
        rcases hasWon_iff.mp hwon with ⟨k, hk'⟩
        rw [hk] at hk'
        exact absurd hk' (by simp only [reduceCtorEq, not_false_eq_true])
      rw [if_neg hlost, Option.map_none]
  | some k =>
      rw [if_pos (hasWon_iff.mpr ⟨k, hk⟩), Option.map_some, (keptGuid?_eq_some_iff.mp hk).2.1]

theorem filterMap_won (path : String) (guids : List GuidSymbol) :
    (guids.filterMap fun guid =>
        (keptGuid? (guidsOf tables).constants guid).map fun k => (k.name, (path, guid))) =
      (guids.filter (hasWon tables)).map fun guid => (ofGuidName guid.name, (path, guid)) := by
  induction guids with
  | nil => rfl
  | cons guid guids ih =>
      rw [List.filterMap_cons, map_keptGuid?]
      by_cases hwon : hasWon tables guid = true
      · simp only [if_pos hwon, List.filter_cons_of_pos hwon, List.map_cons, ih]
      · simp only [if_neg hwon, List.filter_cons_of_neg hwon, ih]

/-- The symbols of a class that agree with a GUID are those that won, each with its key. -/
theorem map_agreements (name : String) :
    ((agreements (guidsOf tables).constants (tablesNamed tables name)).map fun item =>
        (item.1.name, item.2)) =
      (winningSymbols tables name).map fun g => (ofGuidName g.2.name, g) := by
  unfold agreements winningSymbols
  rw [List.map_flatMap, List.map_flatMap]
  refine List.flatMap_congr fun t _ => ?_
  simp only [List.map_filterMap, Option.map_map, Function.comp_def, List.map_map]
  exact filterMap_won t.path t.table.guids

/-- GUIDs that symbols agree with are told apart by their keys. -/
theorem eq_of_agreements_name_eq {ts : List LocatedTable} {a b : Constant Guid × LocatedGuid}
    (ha : a ∈ agreements (guidsOf tables).constants ts)
    (hb : b.1 ∈ (guidsOf tables).constants) (h : a.1.name = b.1.name) : a.1 = b.1 := by
  rcases mem_agreements.mp ha with ⟨_, _, _, _, hk⟩
  exact eq_of_name_eq (mem_of_keptGuid? hk) hb h

/-- The symbols under a GUID in a class are those that won under its key. -/
theorem symbolsUnder_eq {k : Constant Guid} (hk : k ∈ (guidsOf tables).constants)
    (name : String) : symbolsUnder tables name k = winningSymbolsOf tables name k.name := by
  have hrename : Grouping.membersIn ((agreements (guidsOf tables).constants
      (tablesNamed tables name)).map fun item => (item.1.name, item.2)) k.name =
      symbolsUnder tables name k :=
    Grouping.membersIn_rename Constant.name fun item hitem hname =>
      eq_of_agreements_name_eq (b := (k, item.2)) hitem hk hname
  rw [map_agreements, Grouping.membersIn_map_key] at hrename
  exact hrename.symm

/-- The groups under the GUIDs of a class are the groups under their keys. -/
theorem entries_agreeing (tables : List LocatedTable) (name : String) :
    ((agreeing (guidsOf tables).constants (tablesNamed tables name)).entries.map fun e =>
        (e.1.name, e.2)) =
      ((winningSymbols tables name).map fun g => ofGuidName g.2.name).eraseDups.map fun key =>
        (key, winningSymbolsOf tables name key) := by
  have hentries : (agreeing (guidsOf tables).constants (tablesNamed tables name)).entries =
      Grouping.groups (agreements (guidsOf tables).constants (tablesNamed tables name)) :=
    Grouping.entries_ofList _
  rw [hentries, ← Grouping.groups_rename Constant.name, map_agreements, Grouping.groups,
    List.map_map]
  · refine List.map_congr_left fun key _ => ?_
    rw [Grouping.membersIn_map_key]
    rfl
  · intro a ha b hb hname
    rcases mem_agreements.mp (show (b.1, b.2) ∈ _ from hb) with ⟨_, _, _, _, hk⟩
    exact eq_of_agreements_name_eq ha (mem_of_keptGuid? hk) hname

/-- The reports of a class, key by key as symbols win under them. -/
theorem reports_ofMembers (name : String) :
    (TableClass.ofMembers (guidsOf tables).constants name (tablesNamed tables name)).2 =
      ((winningSymbols tables name).map fun g => ofGuidName g.2.name).eraseDups.flatMap
        fun key => (idsUnder (winningSymbolsOf tables name key)).diagnostics := by
  have hkeys := congrArg (List.flatMap fun e : String × List LocatedGuid =>
    (idsUnder e.2).diagnostics) (entries_agreeing tables name)
  rw [List.flatMap_map, List.flatMap_map] at hkeys
  rw [TableClass.ofMembers, List.flatMap_map]
  exact hkeys

/-- The reports of a scope, class by class as identifiers come up. -/
theorem reports_ofTables : (TableClass.ofTables tables).2 = (guidsOf tables).diagnostics ++
    (tables.map fun t => ofName t.table.name).eraseDups.flatMap fun name =>
      ((winningSymbols tables name).map fun g => ofGuidName g.2.name).eraseDups.flatMap fun key =>
        (idsUnder (winningSymbolsOf tables name key)).diagnostics := by
  have hentries : (tablesByIdentifier tables).entries =
      (tables.map fun t => ofName t.table.name).eraseDups.map fun name =>
        (name, tablesNamed tables name) := by
    rw [tablesByIdentifier, Grouping.entries_ofList, Grouping.groups, List.map_map]
    exact List.map_congr_left fun name _ => by rw [Grouping.membersIn_map_key]; rfl
  simp only [TableClass.ofTables, hentries, List.flatMap_map, reports_ofMembers]

/-- Classes are told in the order of their names, and report as they come up. -/
example :
    let classes := TableClass.ofTables
      [⟨"z.vsct", ⟨"Z", [⟨"guidTool", ⟨1⟩, [⟨"Go", 1⟩, ⟨"Go", 2⟩]⟩]⟩⟩,
       ⟨"a.vsct", ⟨"A", [⟨"guidTool", ⟨1⟩, [⟨"Go", 3⟩, ⟨"Go", 4⟩]⟩]⟩⟩]
    classes.1.map (·.name) = ["A", "Z"] ∧
      classes.2.map (·.location.path) = [some "z.vsct", some "a.vsct"] := by
  decide +kernel

end Winning

section Origins

variable {tables : List LocatedTable}

theorem mem_winningSymbolsOf {k : Constant Guid} (hk : k ∈ (guidsOf tables).constants)
    {name : String} {g : LocatedGuid} :
    g ∈ winningSymbolsOf tables name k.name ↔
      ∃ t ∈ tables, ofName t.table.name = name ∧ t.path = g.1 ∧ g.2 ∈ t.table.guids ∧
        ofGuidName g.2.name = k.name ∧ g.2.value = k.value := by
  rw [← symbolsUnder_eq hk, mem_symbolsUnder]
  constructor
  · rintro ⟨t, ht, hname, hpath, hg, hkept⟩
    rcases keptGuid?_eq_some_iff.mp hkept with ⟨_, hkey, hvalue⟩
    exact ⟨t, ht, hname, hpath, hg, hkey.symm, hvalue.symm⟩
  · rintro ⟨t, ht, hname, hpath, hg, hkey, hvalue⟩
    exact ⟨t, ht, hname, hpath, hg, keptGuid?_eq_some_iff.mpr ⟨hk, hkey.symm, hvalue.symm⟩⟩

/-- What a class of the scope lists was kept, with the identifiers that won under its key. -/
theorem guid_of_mem_guids {c : TableClass} (hc : c ∈ (TableClass.ofTables tables).1)
    {g : GuidClass} (hg : g ∈ c.guids) :
    g.guid ∈ (guidsOf tables).constants ∧
      (∃ symbol, symbol ∈ winningSymbolsOf tables c.name g.guid.name) ∧
      g.ids = (idsUnder (winningSymbolsOf tables c.name g.guid.name)).constants := by
  rcases mem_ofTables.mp hc with ⟨t, _, rfl⟩
  rcases mem_guids_tableClass.mp hg with ⟨⟨symbol, hsymbol⟩, hclass⟩
  rcases mem_symbolsUnder.mp hsymbol with ⟨_, _, _, _, _, hkept⟩
  have hk := mem_of_keptGuid? hkept
  have hunder := symbolsUnder_eq hk (ofName t.table.name)
  refine ⟨hk, ⟨symbol, hunder ▸ hsymbol⟩, ?_⟩
  rw [hclass, guidClass, hunder]
  rfl

/-- A key is listed in a class exactly when one of its tables declares it with the value kept. -/
theorem mem_keys_iff {c : TableClass} (hc : c ∈ (TableClass.ofTables tables).1) (key : String) :
    key ∈ c.guids.map (·.guid.name) ↔
      ∃ t ∈ tables, ofName t.table.name = c.name ∧ ∃ symbol ∈ t.table.guids,
        ofGuidName symbol.name = key ∧
          ∃ k ∈ (guidsOf tables).constants, k.name = key ∧ k.value = symbol.value := by
  rw [List.mem_map]
  constructor
  · rintro ⟨g, hg, rfl⟩
    rcases guid_of_mem_guids hc hg with ⟨hk, ⟨symbol, hsymbol⟩, _⟩
    rcases (mem_winningSymbolsOf hk).mp hsymbol with ⟨t, ht, hname, _, hmem, hkey, hvalue⟩
    exact ⟨t, ht, hname, symbol.2, hmem, hkey, g.guid, hk, rfl, hvalue.symm⟩
  · rintro ⟨t, ht, hname, symbol, hsymbol, hkey, k, hk, rfl, hvalue⟩
    have hwon : (t.path, symbol) ∈ symbolsUnder tables c.name k :=
      mem_symbolsUnder.mpr ⟨t, ht, hname, rfl, hsymbol,
        keptGuid?_eq_some_iff.mpr ⟨hk, hkey.symm, hvalue⟩⟩
    -- The symbol brings the GUID into the class of its name, which is this class.
    rcases mem_classes_of_symbol hwon with ⟨hclass, hguid⟩
    rw [eq_of_className_eq hc hclass rfl]
    exact ⟨_, hguid, rfl⟩

/-- An identifier of a class is declared there, under a symbol that has the value kept. -/
theorem traced_of_mem_ids {c : TableClass} (hc : c ∈ (TableClass.ofTables tables).1)
    {g : GuidClass} (hg : g ∈ c.guids) {id : Constant CommandId} (hid : id ∈ g.ids) :
    ∃ t ∈ tables, ofName t.table.name = c.name ∧ ∃ symbol ∈ t.table.guids,
      ofGuidName symbol.name = g.guid.name ∧ symbol.value = g.guid.value ∧
        ∃ i ∈ symbol.ids, ofName i.name = id.name ∧ i.name = id.written ∧ i.value = id.value := by
  rcases guid_of_mem_guids hc hg with ⟨hk, _, hids⟩
  rw [hids] at hid
  rcases exists_constant_eq_of_mem hid with ⟨d, hd, rfl⟩
  rcases mem_idDeclarationsUnder.mp hd with ⟨symbol, hsymbol, i, hi, rfl⟩
  rcases (mem_winningSymbolsOf hk).mp hsymbol with ⟨t, ht, hname, _, hmem, hkey, hvalue⟩
  exact ⟨t, ht, hname, symbol.2, hmem, hkey, hvalue, i, hi, rfl, rfl, rfl⟩

/-- A report about an identifier is about two of them under one GUID in one class. -/
theorem conflict_of_mem_reports {report : Diagnostic}
    (h : report ∈ (TableClass.ofTables tables).2) :
    report ∈ (guidsOf tables).diagnostics ∨
      ∃ c ∈ (TableClass.ofTables tables).1, ∃ g ∈ c.guids,
        ∃ d ∈ idDeclarationsUnder (winningSymbolsOf tables c.name g.guid.name),
        ∃ e ∈ idDeclarationsUnder (winningSymbolsOf tables c.name g.guid.name),
          d.key = e.key ∧ d.value ≠ e.value ∧ report = d.refusal := by
  refine (mem_diagnostics_ofTables h).imp_right ?_
  rintro ⟨name, k, hreport⟩
  rcases refusal_of_mem_merge hreport with ⟨d, hd, e, he, hconflict⟩
  rcases mem_idDeclarationsUnder.mp hd with ⟨symbol, hsymbol, _⟩
  rcases mem_symbolsUnder.mp hsymbol with ⟨_, _, _, _, _, hkept⟩
  rcases mem_classes_of_symbol hsymbol with ⟨hclass, hguid⟩
  refine ⟨_, hclass, _, hguid, d, ?_, e, ?_, hconflict⟩
  · exact symbolsUnder_eq (mem_of_keptGuid? hkept) name ▸ hd
  · exact symbolsUnder_eq (mem_of_keptGuid? hkept) name ▸ he

theorem findsAll (tables : List LocatedTable) : FindsAll tables := by
  refine ⟨fun t ht symbol hsymbol => ?_, fun gathered hgathered => ?_, ?_⟩
  · have hd := mem_guidDeclarations.mpr ⟨t, ht, symbol, hsymbol, rfl⟩
    rcases exists_constant_of_mem hd with ⟨k, hk, hname⟩
    have hfind := find?_name_of_mem hk
    rw [hname] at hfind
    exact ⟨k, hfind⟩
  · rcases mem_tablesByIdentifier.mp hgathered with ⟨⟨t, ht, hname⟩, hmembers⟩
    have hmem : t ∈ gathered.2 := hmembers ▸ mem_tablesNamed.mpr ⟨ht, hname⟩
    exact ⟨_, List.head?_eq_some_head (List.ne_nil_of_mem hmem)⟩
  · intro gathered _ entry hentry
    exact find?_name_of_mem (mem_of_mem_agreeing hentry)

end Origins

/-- The nested layout is what it must be, and nothing on the way to it can fail. -/
theorem isNestedResolution_ofTables (tables : List LocatedTable) :
    IsNestedResolution tables (TableClass.ofTables tables).1 (TableClass.ofTables tables).2 ∧
      FindsAll tables := by
  refine ⟨⟨?_, fun name => ?_, fun c hc => ?_, fun c hc => ?_, fun c hc => mem_keys_iff hc,
    fun c hc g hg => (guid_of_mem_guids hc hg).1, fun c hc g hg => (guid_of_mem_guids hc hg).2.2,
    fun c hc g hg id hid => traced_of_mem_ids hc hg hid, reports_ofTables,
    fun report => conflict_of_mem_reports⟩, findsAll tables⟩
  · exact List.pairwise_map.mpr (increasing_ofTables tables)
  · rw [List.mem_map, List.mem_map]
    constructor
    · rintro ⟨c, hc, rfl⟩
      rcases mem_ofTables.mp hc with ⟨t, ht, rfl⟩
      exact ⟨t, ht, rfl⟩
    · rintro ⟨t, ht, rfl⟩
      exact ⟨_, mem_ofTables.mpr ⟨t, ht, rfl⟩, rfl⟩
  · rcases exists_first_of_mem_ofTables hc with ⟨first, hfirst, hname⟩
    rw [tablesNamed, List.head?_filter] at hfirst
    exact ⟨first, hfirst, hname⟩
  · rcases mem_ofTables.mp hc with ⟨t, _, rfl⟩
    exact List.pairwise_map.mpr (increasing_guids_tableClass tables _)

end PackageSymbols

import PackageSymbols.Proofs.Classes.Order
import PackageSymbols.Proofs.Identifier

/-!
# Generated Names Merged Again

What a merge keeps can be declared again, in a table that has the generated names
for its names. Merging that table changes nothing: its names are made into
themselves, and no two of them are the same, so nothing is left to decide.

The table is not determined by this. Its GUIDs may stand in any order, and each
identifier may be under any of them, since the flat layout merges identifiers
whatever they are under. `Restates` allows all of that. Identifiers need a GUID to
be under, and there is one whenever there are identifiers.

A constant of the second merge is written as it is generated, which the first one
need not have been. So it is names and values that stay, and in their order.

## Main definitions

* `Constant.nameAndValue`: What is declared of a constant again.
* `Restates`: A table that declares what flat classes list.
* `FlatClasses.restated`: One such table.

## Theorems

* `merge_restated`: Declaring constants again leads to the same names and values.
* `ofGuidName_name_of_mem`, `ofName_name_of_mem`: Names are made into themselves.
* `restates_restated`: There is a table that declares what is listed.
* `ofTables_restated`: Such tables have the same flat classes.
-/

namespace PackageSymbols

open Identifier

/-- The generated name of a constant with its value. -/
def Constant.nameAndValue {α : Type} (c : Constant α) : String × α :=
  (c.name, c.value)

/-- Whether a table declares the GUIDs and the identifiers of flat classes by their generated
    names, in any order and the identifiers under any of the GUIDs. -/
structure Restates (classes : FlatClasses) (table : CommandTable) : Prop where
  guids : (table.guids.map fun g => (g.name, g.value)).Perm
    (classes.guids.map Constant.nameAndValue)
  ids : (table.ids.map fun i => (i.name, i.value)).Perm (classes.ids.map Constant.nameAndValue)

/-- The symbols of a table with all identifiers under its first GUID. -/
def FlatClasses.restated (classes : FlatClasses) : List GuidSymbol :=
  match classes.guids with
  | [] => []
  | k :: rest =>
      ⟨k.name, k.value, classes.ids.map fun i => ⟨i.name, i.value⟩⟩ ::
        rest.map fun k => ⟨k.name, k.value, []⟩

section Merges

variable {α : Type} [DecidableEq α]

theorem pairwise_nameAndValue (ds : List (Declaration α)) :
    ((merge ds).constants.map Constant.nameAndValue).Pairwise fun a b => a.1 < b.1 :=
  List.pairwise_map.mpr (increasing_constants ds)

/-- Declarations that have the constants of a merge for their keys and values lead to the same
    again, without a report. -/
theorem merge_of_perm {ds es : List (Declaration α)}
    (h : (es.map fun e => (e.key, e.value)).Perm
      ((merge ds).constants.map Constant.nameAndValue)) :
    (merge es).diagnostics = [] ∧
      (merge es).constants.map Constant.nameAndValue =
        (merge ds).constants.map Constant.nameAndValue := by
  -- The names of constants are all different, so the keys are as well.
  have hkeys : (es.map (·.key)).Nodup := by
    have hnames := (h.map Prod.fst).nodup_iff.mpr (by
      rw [List.map_map]
      exact nodup_names_constants ds)
    rw [List.map_map] at hnames
    exact hnames
  have hagree : Agree es := by
    intro d hd e he hkey
    rw [List.inj_on_of_nodup_map hkeys hd he hkey]
  refine ⟨(merge_silent_iff es).mpr hagree, ?_⟩
  refine eq_of_increasing (pairwise_nameAndValue es) (pairwise_nameAndValue ds) ?_
  intro p
  rw [← h.mem_iff, List.mem_map, List.mem_map]
  constructor
  · rintro ⟨c, hc, rfl⟩
    rcases exists_constant_eq_of_mem hc with ⟨e, he, rfl⟩
    exact ⟨e, he, rfl⟩
  · rintro ⟨e, he, rfl⟩
    rcases hagree.exists_constant he with ⟨c, hc, hname, hvalue⟩
    exact ⟨c, hc, Prod.ext hname hvalue⟩

/-- Constants that are declared again by their names lead to the same, if names are made into
    themselves. -/
theorem merge_restated (make : String → String) {ds es : List (Declaration α)}
    (hmade : ∀ c ∈ (merge ds).constants, make c.name = c.name)
    (hkey : ∀ e ∈ es, e.key = make e.written)
    (h : (es.map fun e => (e.written, e.value)).Perm
      ((merge ds).constants.map Constant.nameAndValue)) :
    (merge es).diagnostics = [] ∧
      (merge es).constants.map Constant.nameAndValue =
        (merge ds).constants.map Constant.nameAndValue := by
  refine merge_of_perm ?_
  have hmapped := h.map fun p => (make p.1, p.2)
  rw [List.map_map, List.map_map] at hmapped
  have hleft : (es.map fun e => (e.key, e.value)) =
      es.map ((fun p => (make p.1, p.2)) ∘ fun e => (e.written, e.value)) := by
    refine List.map_congr_left fun e he => ?_
    rw [Function.comp_apply, hkey e he]
  have hright : (merge ds).constants.map Constant.nameAndValue =
      (merge ds).constants.map ((fun p => (make p.1, p.2)) ∘ Constant.nameAndValue) := by
    refine List.map_congr_left fun c hc => ?_
    rw [Function.comp_apply, Constant.nameAndValue, hmade c hc]
  rw [hleft, hright]
  exact hmapped

end Merges

section Tables

variable {tables : List LocatedTable}

theorem ofGuidName_name_of_mem {k : Constant Guid} (hk : k ∈ (guidsOf tables).constants) :
    ofGuidName k.name = k.name := by
  rcases exists_constant_eq_of_mem hk with ⟨d, hd, rfl⟩
  rcases mem_guidDeclarations.mp hd with ⟨_, _, guid, _, rfl⟩
  exact ofGuidName_ofGuidName guid.name

theorem ofName_name_of_mem {id : Constant CommandId} (hid : id ∈ (idsOf tables).constants) :
    ofName id.name = id.name := by
  rcases exists_constant_eq_of_mem hid with ⟨d, hd, rfl⟩
  rcases mem_idDeclarations.mp hd with ⟨_, _, _, _, i, _, rfl⟩
  exact ofName_ofName i.name

/-- Where there are identifiers, there is a GUID that they can be under. -/
theorem ids_eq_nil_of_guids_eq_nil (h : (guidsOf tables).constants = []) :
    (idsOf tables).constants = [] := by
  refine List.eq_nil_iff_forall_not_mem.mpr ?_
  intro id hid
  rcases exists_constant_eq_of_mem hid with ⟨d, hd, _⟩
  rcases mem_idDeclarations.mp hd with ⟨t, ht, guid, hguid, _⟩
  rcases exists_constant_of_mem (mem_guidDeclarations.mpr ⟨t, ht, guid, hguid, rfl⟩) with ⟨k, hk, _⟩
  have hnone : k ∈ (guidsOf tables).constants := hk
  rw [h] at hnone
  exact List.not_mem_nil hnone

/-- Flat classes are declared by a table, if they have a GUID for their identifiers. -/
theorem restates_restated {classes : FlatClasses} (h : classes.guids = [] → classes.ids = [])
    (name : String) : Restates classes ⟨name, classes.restated⟩ := by
  rcases classes with ⟨guids, ids⟩
  cases guids with
  | nil =>
      obtain rfl : ids = [] := h rfl
      exact ⟨List.Perm.refl _, List.Perm.refl _⟩
  | cons k rest =>
      constructor
      · simp only [FlatClasses.restated, List.map_cons, List.map_map]
        exact List.Perm.refl _
      · -- Only the first GUID has identifiers.
        have hothers : (rest.map fun k => ({ name := k.name, value := k.value, ids := [] }
            : GuidSymbol)).flatMap (·.ids) = [] := by
          rw [List.flatMap_map, List.flatMap_eq_nil_iff]
          exact fun _ _ => rfl
        simp only [FlatClasses.restated, CommandTable.ids, List.flatMap_cons, hothers,
          List.append_nil, List.map_map]
        exact List.Perm.refl _

theorem guidsOf_restated {table : CommandTable}
    (h : Restates (FlatClasses.ofTables tables).1 table) (path : String) :
    (guidsOf [⟨path, table⟩]).diagnostics = [] ∧
      (guidsOf [⟨path, table⟩]).constants.map Constant.nameAndValue =
        (guidsOf tables).constants.map Constant.nameAndValue := by
  refine merge_restated ofGuidName (fun _ => ofGuidName_name_of_mem) ?_ ?_
  · intro e he
    rcases mem_guidDeclarations.mp he with ⟨_, _, guid, _, rfl⟩
    rfl
  · rw [List.flatMap_singleton, List.map_map]
    exact h.guids

theorem idsOf_restated {table : CommandTable}
    (h : Restates (FlatClasses.ofTables tables).1 table) (path : String) :
    (idsOf [⟨path, table⟩]).diagnostics = [] ∧
      (idsOf [⟨path, table⟩]).constants.map Constant.nameAndValue =
        (idsOf tables).constants.map Constant.nameAndValue := by
  refine merge_restated ofName (fun _ => ofName_name_of_mem) ?_ ?_
  · intro e he
    rcases mem_idDeclarations.mp he with ⟨_, _, _, _, id, _, rfl⟩
    rfl
  · rw [List.flatMap_singleton, List.map_map]
    exact h.ids

end Tables

/-- A table that declares the GUIDs and identifiers of flat classes by their generated names has
    the same names and values in its own flat classes, and no reports. There is such a table, and
    names that were made are not changed by making names of them. -/
theorem ofTables_restated (tables : List LocatedTable) :
    (∃ table, Restates (FlatClasses.ofTables tables).1 table) ∧
    (∀ path table, Restates (FlatClasses.ofTables tables).1 table →
      (FlatClasses.ofTables [⟨path, table⟩]).1.guids.map Constant.nameAndValue =
        (FlatClasses.ofTables tables).1.guids.map Constant.nameAndValue ∧
      (FlatClasses.ofTables [⟨path, table⟩]).1.ids.map Constant.nameAndValue =
        (FlatClasses.ofTables tables).1.ids.map Constant.nameAndValue ∧
      (FlatClasses.ofTables [⟨path, table⟩]).2 = []) ∧
    (∀ name, ofGuidName (ofGuidName name) = ofGuidName name) ∧
    ∀ name, ofName (ofName name) = ofName name := by
  refine ⟨⟨_, restates_restated ids_eq_nil_of_guids_eq_nil ""⟩, ?_, ofGuidName_ofGuidName,
    ofName_ofName⟩
  intro path table h
  have hguids := guidsOf_restated h path
  have hids := idsOf_restated h path
  exact ⟨hguids.2, hids.2, List.append_eq_nil_iff.mpr ⟨hguids.1, hids.1⟩⟩

/-- Tables whose names all have to be changed, with two conflicts and one name with the word. -/
def crookedTables : List LocatedTable :=
  [{ path := "a.vsct"
     table := ⟨"A", [⟨"guidTool-Box", ⟨1⟩, [⟨"1st", 1⟩, ⟨"Go.On", 2⟩]⟩]⟩ },
   { path := "b.vsct"
     table := ⟨"B", [⟨"Tool Box", ⟨2⟩, [⟨"Go On", 3⟩]⟩, ⟨"guid!", ⟨4⟩, []⟩]⟩ }]

/-- What is kept of them, with the identifiers under different GUIDs. -/
def straightTable : CommandTable :=
  ⟨"C", [⟨"guid_", ⟨4⟩, [⟨"_1st", 1⟩]⟩, ⟨"Tool_Box", ⟨2⟩, [⟨"Go_On", 3⟩]⟩]⟩

/-- What is kept of tables in conflict is declared again without a conflict. -/
theorem ofTables_restated_crookedTables :
    (FlatClasses.ofTables crookedTables).2 ≠ [] ∧
    Restates (FlatClasses.ofTables crookedTables).1 straightTable ∧
    (FlatClasses.ofTables [⟨"c.vsct", straightTable⟩]).2 = [] ∧
    (FlatClasses.ofTables [⟨"c.vsct", straightTable⟩]).1.ids.map Constant.nameAndValue =
      (FlatClasses.ofTables crookedTables).1.ids.map Constant.nameAndValue := by
  have hrestates : Restates (FlatClasses.ofTables crookedTables).1 straightTable :=
    ⟨by decide +kernel, by decide +kernel⟩
  have hsame := (ofTables_restated crookedTables).2.1 "c.vsct" straightTable hrestates
  exact ⟨by decide +kernel, hrestates, hsame.2.2, hsame.2.1⟩

end PackageSymbols

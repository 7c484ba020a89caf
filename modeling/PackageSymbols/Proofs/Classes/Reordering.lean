import Mathlib.Data.List.Forall2
import PackageSymbols.Proofs.Classes.Nested
import PackageSymbols.Proofs.Merge.Order

/-!
# Merges of Rearranged Tables

The order in which a table declares its symbols carries no meaning, and neither
does the order of the tables, with one exception: if one name is declared with two
values, the first to come decides. Names that differ are no exception, also where
characters are replaced in them and one generated name is left. Which of them wins
is decided by the names as written then, and the values do not matter.

Rearranging is possible at three levels, since tables hold GUIDs and GUIDs hold
identifiers. `RearrangedBy` moves the parts of a row and changes each of them as
the level below does. Whatever is rearranged, the declarations that a merge is
given are the same up to order, and this is all that merging looks at.

## Main definitions

* `RearrangedBy`: A row with its parts moved, and each of them changed in a given way.
* `GuidSymbol.IsRearranged`, `LocatedTable.IsRearranged`: A symbol and a table
  with the same contents in another order.
* `OneValuePerGuid`, `OneValuePerId`: No name as written has two values.

## Theorems

* `flatMap_perm_of_rearrangedBy`: What the parts of a rearranged row contribute.
* `guidDeclarations_perm`, `idDeclarations_perm`: Rearranged tables declare the same.
* `merges_of_rearranged`: Their merges keep the same and report the same.
-/

namespace PackageSymbols

/-- Whether a row holds the parts of another one in any order, each changed in a given way. -/
def RearrangedBy {α : Type} (change : α → α → Prop) (as bs : List α) : Prop :=
  ∃ row, as.Perm row ∧ List.Forall₂ change row bs

/-- Whether a symbol declares the same with its identifiers in any order. -/
structure GuidSymbol.IsRearranged (a b : GuidSymbol) : Prop where
  name : a.name = b.name
  value : a.value = b.value
  ids : a.ids.Perm b.ids

/-- Whether a table declares the same with its symbols, and what is under them, in any order. -/
structure LocatedTable.IsRearranged (t u : LocatedTable) : Prop where
  path : t.path = u.path
  name : t.table.name = u.table.name
  guids : RearrangedBy GuidSymbol.IsRearranged t.table.guids u.table.guids

/-- Whether GUIDs of one name as written have one value. -/
def OneValuePerGuid (tables : List LocatedTable) : Prop :=
  ∀ t ∈ tables, ∀ a ∈ t.table.guids, ∀ u ∈ tables, ∀ b ∈ u.table.guids,
    a.name = b.name → a.value = b.value

/-- Whether identifiers of one name as written have one value. -/
def OneValuePerId (tables : List LocatedTable) : Prop :=
  ∀ t ∈ tables, ∀ a ∈ t.table.ids, ∀ u ∈ tables, ∀ b ∈ u.table.ids,
    a.name = b.name → a.value = b.value

section Rows

variable {α β : Type} {change : α → α → Prop} {f : α → List β}

theorem flatMap_perm_of_forall₂ {as bs : List α} (h : List.Forall₂ change as bs)
    (hf : ∀ a b, change a b → (f a).Perm (f b)) : (as.flatMap f).Perm (bs.flatMap f) := by
  induction h with
  | nil => exact List.Perm.refl _
  | cons hab _ ih =>
      rw [List.flatMap_cons, List.flatMap_cons]
      exact (hf _ _ hab).append ih

/-- What the parts of a row contribute is the same up to order, if it is for each part. -/
theorem flatMap_perm_of_rearrangedBy {as bs : List α} (h : RearrangedBy change as bs)
    (hf : ∀ a b, change a b → (f a).Perm (f b)) : (as.flatMap f).Perm (bs.flatMap f) := by
  rcases h with ⟨row, hperm, hrow⟩
  exact (hperm.flatMap_right f).trans (flatMap_perm_of_forall₂ hrow hf)

end Rows

section Tables

variable {tables others : List LocatedTable}

theorem guidDeclarations_perm (h : RearrangedBy LocatedTable.IsRearranged tables others) :
    (guidDeclarations tables).Perm (guidDeclarations others) := by
  refine flatMap_perm_of_rearrangedBy h ?_
  intro t u htu
  rw [htu.path, List.map_eq_flatMap, List.map_eq_flatMap]
  refine flatMap_perm_of_rearrangedBy htu.guids ?_
  intro a b hab
  -- A GUID is declared by its name and its value, whatever is under it.
  have hsame : declarationOfGuid u.path a = declarationOfGuid u.path b := by
    simp only [declarationOfGuid, hab.name, hab.value]
  rw [hsame]

theorem idDeclarations_perm (h : RearrangedBy LocatedTable.IsRearranged tables others) :
    (idDeclarations tables).Perm (idDeclarations others) := by
  refine flatMap_perm_of_rearrangedBy h ?_
  intro t u htu
  rw [htu.path]
  refine List.Perm.map _ ?_
  unfold CommandTable.ids
  refine flatMap_perm_of_rearrangedBy htu.guids ?_
  intro a b hab
  exact hab.ids

theorem OneValuePerGuid.unambiguous (h : OneValuePerGuid tables) :
    Unambiguous (guidDeclarations tables) := by
  intro d hd e he _ hwritten
  rcases mem_guidDeclarations.mp hd with ⟨t, ht, a, ha, rfl⟩
  rcases mem_guidDeclarations.mp he with ⟨u, hu, b, hb, rfl⟩
  exact h t ht a ha u hu b hb hwritten

theorem OneValuePerId.unambiguous (h : OneValuePerId tables) :
    Unambiguous (idDeclarations tables) := by
  intro d hd e he _ hwritten
  rcases List.mem_flatMap.mp hd with ⟨t, ht, hd⟩
  rcases List.mem_map.mp hd with ⟨a, ha, rfl⟩
  rcases List.mem_flatMap.mp he with ⟨u, hu, he⟩
  rcases List.mem_map.mp he with ⟨b, hb, rfl⟩
  exact h t ht a ha u hu b hb hwritten

end Tables

/-- Where no name as written has two values, rearranged tables lead to the same constants and to
    the same reports, each as often. -/
theorem merges_of_rearranged (tables others : List LocatedTable)
    (h : RearrangedBy LocatedTable.IsRearranged tables others) :
    (OneValuePerGuid tables →
      (guidsOf tables).constants = (guidsOf others).constants ∧
      (guidsOf tables).diagnostics.Perm (guidsOf others).diagnostics) ∧
    (OneValuePerId tables →
      (idsOf tables).constants = (idsOf others).constants ∧
      (idsOf tables).diagnostics.Perm (idsOf others).diagnostics) := by
  constructor
  · intro hvalues
    have hperm := guidDeclarations_perm h
    exact ⟨constants_eq_of_mem_iff hvalues.unambiguous fun _ => hperm.mem_iff,
      diagnostics_perm hvalues.unambiguous hperm⟩
  · intro hvalues
    have hperm := idDeclarations_perm h
    exact ⟨constants_eq_of_mem_iff hvalues.unambiguous fun _ => hperm.mem_iff,
      diagnostics_perm hvalues.unambiguous hperm⟩

/-- Names that differ, with values that differ, and one generated name for all of them. -/
def blurredTables : List LocatedTable :=
  [{ path := "a.vsct"
     table := ⟨"A", [⟨"Tool-Box", ⟨1⟩, [⟨"Go.On", 1⟩, ⟨"Go-On", 2⟩]⟩, ⟨"Tool.Box", ⟨2⟩, []⟩]⟩ },
   { path := "b.vsct"
     table := ⟨"B", [⟨"guidTool Box", ⟨3⟩, [⟨"Go On", 3⟩]⟩]⟩ }]

/-- The same tables, symbols and identifiers in another order. -/
def blurredTablesRearranged : List LocatedTable :=
  [{ path := "b.vsct"
     table := ⟨"B", [⟨"guidTool Box", ⟨3⟩, [⟨"Go On", 3⟩]⟩]⟩ },
   { path := "a.vsct"
     table := ⟨"A", [⟨"Tool.Box", ⟨2⟩, []⟩, ⟨"Tool-Box", ⟨1⟩, [⟨"Go-On", 2⟩, ⟨"Go.On", 1⟩]⟩]⟩ }]

theorem isRearranged_blurredTables :
    RearrangedBy LocatedTable.IsRearranged blurredTables blurredTablesRearranged := by
  refine ⟨blurredTables.reverse, (List.reverse_perm _).symm, ?_⟩
  refine List.Forall₂.cons ⟨rfl, rfl, _, List.Perm.refl _, ?_⟩ (List.Forall₂.cons
    ⟨rfl, rfl, _, List.Perm.swap _ _ _, ?_⟩ List.Forall₂.nil)
  · exact List.Forall₂.cons ⟨rfl, rfl, List.Perm.refl _⟩ List.Forall₂.nil
  · exact List.Forall₂.cons ⟨rfl, rfl, List.Perm.refl _⟩
      (List.Forall₂.cons ⟨rfl, rfl, List.Perm.swap _ _ _⟩ List.Forall₂.nil)

/-- Conflicts between names that differ are reported alike in either order. -/
theorem merges_of_rearranged_blurredTables :
    RearrangedBy LocatedTable.IsRearranged blurredTables blurredTablesRearranged ∧
    OneValuePerGuid blurredTables ∧ OneValuePerId blurredTables ∧
    (guidsOf blurredTables).diagnostics ≠ [] ∧ (idsOf blurredTables).diagnostics ≠ [] ∧
    (guidsOf blurredTables).diagnostics.Perm (guidsOf blurredTablesRearranged).diagnostics ∧
    (idsOf blurredTables).constants = (idsOf blurredTablesRearranged).constants := by
  have hguids : OneValuePerGuid blurredTables := by
    unfold OneValuePerGuid
    decide +kernel
  have hids : OneValuePerId blurredTables := by
    unfold OneValuePerId
    decide +kernel
  have hmerges := merges_of_rearranged _ _ isRearranged_blurredTables
  exact ⟨isRearranged_blurredTables, hguids, hids, by decide +kernel, by decide +kernel,
    (hmerges.1 hguids).2, (hmerges.2 hids).1⟩

end PackageSymbols

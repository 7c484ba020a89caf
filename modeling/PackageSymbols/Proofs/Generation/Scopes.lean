import Mathlib.Data.Finset.Card
import PackageSymbols.Proofs.Generation.Namespaces

/-!
# Scopes Are a Partition

The tables of a run are inserted into scopes one after another, and what a scope
holds decides which symbols win. So the scopes are told by the sequence of
insertions alone: a scope for each key that was inserted, ranked by its first
insertion, with just the tables that were inserted under the key.

One insertion says nothing about this by itself. It does say that it leaves
alone what stands under the other keys, and that a new key comes last and moves
no other, which is true of any groups. What all insertions lead to is known from
`Grouping.entries_ofList`, and the order of the keys is then a matter of
`eraseDups`: a key that is kept is kept where it first comes up.

## Main definitions

* `Grouping.keys`, `Grouping.rank?`: The keys in their order, and the rank of one.
* `Grouping.IsPartition`: What groups are after a sequence of insertions.

## Theorems

* `Grouping.keys_insert`, `Grouping.rank?_insert`: A new key comes last.
* `Grouping.pairwise_eraseDups`: Keys come in the order of their first insertion.
* `Grouping.isPartition_ofList`: Insertions lead to a partition.
* `scopes_partition`: The scopes of a run are a partition of its tables.
-/

namespace PackageSymbols

namespace Grouping

variable {κ α : Type} [DecidableEq κ]

/-- The keys of the groups, in their order. -/
def keys (g : Grouping κ α) : List κ :=
  g.entries.map Prod.fst

/-- How many groups come before that of a key, if there is one. -/
def rank? (g : Grouping κ α) (key : κ) : Option Nat :=
  g.keys.findIdx? (· == key)

/-- What groups are after a sequence of insertions. -/
structure IsPartition (items : List (κ × α)) (g : Grouping κ α) : Prop where
  /-- A group holds what was inserted under its key, in this order. -/
  members_eq : ∀ key, g.members key = membersIn items key
  /-- There is a group for every key that was inserted, and for no other. -/
  mem_keys : ∀ key, key ∈ g.keys ↔ key ∈ items.map Prod.fst
  /-- The keys come in the order of their first insertion, and none comes twice. -/
  ordered : g.keys.Pairwise fun a b =>
    (items.map Prod.fst).idxOf a < (items.map Prod.fst).idxOf b
  /-- What stands under a key is its group, and no group is empty. -/
  entry : ∀ e ∈ g.entries, e.2 = g.members e.1 ∧ e.2 ≠ []
  /-- There are as many groups as keys. -/
  size_eq : g.size = (items.map Prod.fst).toFinset.card
  /-- There are no groups if nothing was inserted, and only then. -/
  isEmpty_iff : g.isEmpty = true ↔ items = []
  /-- The groups together hold each of the insertions once. -/
  perm : (g.entries.flatMap fun e => e.2.map fun member => (e.1, member)).Perm items

section Insertion

theorem keys_insertEntry (key : κ) (member : α) (entries : List (κ × List α)) :
    (insertEntry key member entries).map Prod.fst =
      entries.map Prod.fst ++ if key ∈ entries.map Prod.fst then [] else [key] := by
  induction entries with
  | nil => rfl
  | cons entry rest ih =>
      rw [insertEntry, List.map_cons]
      by_cases hkey : entry.1 = key
      · rw [if_pos hkey, if_pos (List.mem_cons.mpr (Or.inl hkey.symm)), List.append_nil,
          List.map_cons, hkey]
      · rw [if_neg hkey, List.map_cons, ih, List.cons_append]
        simp only [List.mem_cons, Ne.symm hkey, false_or]

/-- A new key comes last, and a known one stays where it is. -/
theorem keys_insert (g : Grouping κ α) (key : κ) (member : α) :
    (g.insert key member).keys = g.keys ++ if key ∈ g.keys then [] else [key] :=
  keys_insertEntry key member g.entries

/-- An insertion does not change the rank of another key. -/
theorem rank?_insert (g : Grouping κ α) {key other : κ} (h : other ≠ key) (member : α) :
    (g.insert key member).rank? other = g.rank? other := by
  rw [rank?, rank?, keys_insert]
  by_cases hkey : key ∈ g.keys
  · rw [if_pos hkey, List.append_nil]
  · have hnone : [key].findIdx? (· == other) = none := by
      rw [List.findIdx?_singleton, beq_eq_false_iff_ne.mpr h.symm, if_neg Bool.false_ne_true]
    rw [if_neg hkey, List.findIdx?_append, hnone, Option.map_none, Option.or_none]

end Insertion

section Sequence

theorem keys_ofList (items : List (κ × α)) :
    (ofList items).keys = (items.map Prod.fst).eraseDups := by
  rw [keys, entries_ofList, groups, List.map_map]
  exact List.map_id _

/-- Keys that are kept once are in the order in which they first come up. -/
theorem pairwise_eraseDups (keys : List κ) :
    keys.eraseDups.Pairwise fun a b => keys.idxOf a < keys.idxOf b := by
  induction keys using List.reverseRecOn with
  | nil => exact List.Pairwise.nil
  | append_singleton keys key ih =>
      -- One more key behind the others does not change where these first come up.
      have hfront : keys.eraseDups.Pairwise fun a b =>
          (keys ++ [key]).idxOf a < (keys ++ [key]).idxOf b := by
        refine ih.imp_of_mem fun ha hb hlt => ?_
        rw [List.idxOf_append_of_mem (List.mem_eraseDups.mp ha),
          List.idxOf_append_of_mem (List.mem_eraseDups.mp hb)]
        exact hlt
      rw [eraseDups_concat]
      by_cases hkey : key ∈ keys
      · rw [if_pos hkey, List.append_nil]
        exact hfront
      · rw [if_neg hkey]
        refine List.pairwise_append.mpr ⟨hfront, List.pairwise_singleton _ _, ?_⟩
        intro a ha b hb
        rw [List.mem_eraseDups] at ha
        rw [List.mem_singleton.mp hb, List.idxOf_append_of_mem ha,
          List.idxOf_append_of_notMem hkey]
        exact Nat.lt_add_right _ (List.idxOf_lt_length_of_mem ha)

/-- Each of the insertions is in the group of its key. -/
theorem flatMap_entries_perm (items : List (κ × α)) :
    ((ofList items).entries.flatMap fun e => e.2.map fun member => (e.1, member)).Perm items := by
  have hparts := perm_flatMap_filter Prod.fst _ (nodup_eraseDups (items.map Prod.fst)) items
    fun item hitem => List.mem_eraseDups.mpr (List.mem_map_of_mem hitem)
  refine List.Perm.trans (List.Perm.of_eq ?_) hparts.symm
  rw [entries_ofList, groups, List.flatMap_map]
  refine List.flatMap_congr fun key _ => ?_
  -- The members of a key with the key itself are the items that have it.
  rw [membersIn, List.map_map]
  refine (List.map_congr_left fun item hitem => ?_).trans (List.map_id _)
  have hkey := beq_iff_eq.mp (List.mem_filter.mp hitem).2
  exact Prod.ext hkey.symm rfl

theorem members_ofList (items : List (κ × α)) (key : κ) :
    (ofList items).members key = membersIn items key := by
  induction items using List.reverseRecOn with
  | nil => rfl
  | append_singleton items item ih =>
      have hlast : ofList (items ++ [item]) = (ofList items).insert item.1 item.2 := by
        rw [ofList, List.foldl_append]
        rfl
      rw [hlast, members_insert, membersIn_concat, ih]
      by_cases hkey : key = item.1
      · rw [if_pos hkey, if_pos hkey.symm]
      · rw [if_neg hkey, if_neg (Ne.symm hkey), List.append_nil]

/-- Insertions lead to a partition of what is inserted. -/
theorem isPartition_ofList (items : List (κ × α)) : IsPartition items (ofList items) where
  members_eq := members_ofList items
  mem_keys key := by rw [keys_ofList, List.mem_eraseDups]
  ordered := by
    rw [keys_ofList]
    exact pairwise_eraseDups _
  entry e he := by
    rcases mem_entries_ofList.mp he with ⟨hkey, hmembers⟩
    rcases List.mem_map.mp hkey with ⟨item, hitem, hfirst⟩
    refine ⟨hmembers.trans (members_ofList items e.1).symm, ?_⟩
    have hmember : item.2 ∈ e.2 := by
      rw [hmembers, mem_membersIn, ← hfirst]
      exact hitem
    exact List.ne_nil_of_mem hmember
  size_eq := by
    have hkeys : (items.map Prod.fst).toFinset = (items.map Prod.fst).eraseDups.toFinset := by
      ext key
      rw [List.mem_toFinset, List.mem_toFinset, List.mem_eraseDups]
    rw [hkeys, List.toFinset_card_of_nodup (nodup_eraseDups _), ← keys_ofList, keys,
      List.length_map, size]
  isEmpty_iff := by
    rw [isEmpty, List.isEmpty_iff, entries_ofList, groups, List.map_eq_nil_iff]
    cases items with
    | nil => exact iff_of_true rfl rfl
    | cons item items =>
        rw [List.map_cons, List.eraseDups_cons]
        exact iff_of_false (List.cons_ne_nil _ _) (List.cons_ne_nil _ _)
  perm := flatMap_entries_perm items

end Sequence

end Grouping

/-- The scopes that tables are inserted into are a partition of the tables, whether they are
    inserted one after another or all at once, and an insertion into one scope changes neither
    the tables nor the rank of another. -/
theorem scopes_partition {L : Type} [DecidableEq L] (items : List (Target L × LocatedTable)) :
    Grouping.IsPartition items (Grouping.ofList items) ∧
    (∀ more, more.foldl (fun g item => g.insert item.1 item.2) (Grouping.ofList items) =
      Grouping.ofList (items ++ more)) ∧
    ∀ (target : Target L) (table : LocatedTable) (other : Target L), other ≠ target →
      ((Grouping.ofList items).insert target table).members other =
        (Grouping.ofList items).members other ∧
      ((Grouping.ofList items).insert target table).rank? other =
        (Grouping.ofList items).rank? other := by
  refine ⟨Grouping.isPartition_ofList items, fun more => ?_, fun target table other hother => ?_⟩
  · rw [Grouping.ofList, Grouping.ofList, List.foldl_append]
  · refine ⟨?_, Grouping.rank?_insert _ hother table⟩
    rw [Grouping.members_insert, if_neg hother]

end PackageSymbols

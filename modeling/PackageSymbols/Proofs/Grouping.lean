import Mathlib.Data.List.Induction
import Mathlib.Data.List.Nodup
import PackageSymbols.Grouping

/-!
# What the Groups of a List Are

Grouping inserts one member after another, and a group is found by walking along
the groups. `groups` says what comes out of this without any insertion: the keys,
each once, in the order in which they first come up, and under each key the
members that are given with it, in their order. One more item on either side is
one more insertion, so the two agree by induction from the end of the list.

Everything else about groups is read off that list. Grouping looks at nothing
but keys, so taking a part of the members, chosen by their keys, and grouping it
gives the same groups in the same order as grouping everything and taking the
part afterwards. The order in which the members of other groups come up between
them does not matter.

## Main definitions

* `Grouping.membersIn`: The members that are given with a key.
* `Grouping.groups`: The groups that items ought to form.

## Theorems

* `Grouping.groups_concat`: One more item is one more insertion.
* `Grouping.entries_ofList`: The groups of a list are what they ought to be.
* `Grouping.nodup_keys_ofList`: No two groups stand under one key.
* `Grouping.mem_entries_ofList`, `Grouping.mem_membersIn`: What is a group, and
  what is in it.
* `Grouping.entries_ofList_filter`: The groups of a part chosen by keys.
* `Grouping.groups_rename`: The groups under other names of their keys.
-/

namespace PackageSymbols

namespace Grouping

variable {κ α : Type} [DecidableEq κ]

theorem eraseDups_concat (keys : List κ) (key : κ) :
    (keys ++ [key]).eraseDups = keys.eraseDups ++ if key ∈ keys then [] else [key] := by
  rw [List.eraseDups_append]
  by_cases h : key ∈ keys
  · simp only [List.removeAll, List.filter_cons, List.filter_nil, List.elem_eq_mem, h, decide_true,
      Bool.not_true, Bool.false_eq_true, if_false, if_true, List.eraseDups_nil]
  · simp only [List.removeAll, List.filter_cons, List.filter_nil, List.elem_eq_mem, h, decide_false,
      Bool.not_false, if_false, if_true, List.eraseDups_cons, List.eraseDups_nil]

theorem nodup_eraseDups (keys : List κ) : keys.eraseDups.Nodup := by
  induction keys using List.reverseRecOn with
  | nil => exact List.nodup_nil
  | append_singleton keys key ih =>
      rw [eraseDups_concat]
      by_cases h : key ∈ keys
      · rw [if_pos h, List.append_nil]
        exact ih
      · rw [if_neg h]
        refine List.nodup_append.mpr ⟨ih, List.nodup_singleton key, ?_⟩
        intro a ha b hb hab
        rw [List.mem_singleton] at hb
        rw [hab, hb, List.mem_eraseDups] at ha
        exact h ha

/-- Keys in another order are the same keys, each once. -/
theorem eraseDups_perm {keys others : List κ} (h : keys.Perm others) :
    keys.eraseDups.Perm others.eraseDups := by
  refine (List.perm_ext_iff_of_nodup (nodup_eraseDups keys) (nodup_eraseDups others)).mpr ?_
  intro key
  rw [List.mem_eraseDups, List.mem_eraseDups, h.mem_iff]

/-- The members that are given with a key, in the order in which they are given. -/
def membersIn (items : List (κ × α)) (key : κ) : List α :=
  (items.filter fun item => item.1 == key).map Prod.snd

theorem membersIn_concat (items : List (κ × α)) (item : κ × α) (key : κ) :
    membersIn (items ++ [item]) key =
      membersIn items key ++ if item.1 = key then [item.2] else [] := by
  rw [membersIn, membersIn, List.filter_append, List.map_append, List.filter_cons, List.filter_nil]
  by_cases h : item.1 = key
  · rw [if_pos h, if_pos (beq_iff_eq.mpr h), List.map_singleton]
  · rw [if_neg h, if_neg (fun hb => h (beq_iff_eq.mp hb)), List.map_nil]

/-- A new member goes to the group of its key if the key is known. -/
theorem insertEntry_map_of_mem {keys : List κ} (hkeys : keys.Nodup) {key : κ} (h : key ∈ keys)
    (member : α) (members : κ → List α) :
    insertEntry key member (keys.map fun k => (k, members k)) =
      keys.map fun k => (k, members k ++ if key = k then [member] else []) := by
  induction keys with
  | nil => exact absurd h List.not_mem_nil
  | cons k keys ih =>
      have hk := List.nodup_cons.mp hkeys
      rw [List.map_cons, insertEntry, List.map_cons]
      by_cases hkey : k = key
      -- The key comes only here, so the other groups stay as they are.
      · have hrest : ∀ j ∈ keys, (j, members j) =
            (j, members j ++ if key = j then [member] else []) := by
          intro j hj
          have hne : key ≠ j := by
            rintro rfl
            exact hk.1 (hkey ▸ hj)
          rw [if_neg hne, List.append_nil]
        rw [if_pos hkey, if_pos hkey.symm, List.map_congr_left hrest, hkey]
      · have hmem : key ∈ keys := (List.mem_cons.mp h).resolve_left (Ne.symm hkey)
        rw [if_neg hkey, if_neg (Ne.symm hkey), ih hk.2 hmem, List.append_nil]

theorem insertEntry_map_of_not_mem {keys : List κ} {key : κ} (h : key ∉ keys) (member : α)
    (members : κ → List α) :
    insertEntry key member (keys.map fun k => (k, members k)) =
      (keys.map fun k => (k, members k)) ++ [(key, [member])] := by
  induction keys with
  | nil => rfl
  | cons k keys ih =>
      rw [List.mem_cons, not_or] at h
      rw [List.map_cons, insertEntry, if_neg (Ne.symm h.1), ih h.2, List.cons_append]

/-- The groups that items ought to form: one for each key, in the order in which the keys first
    come up. -/
def groups (items : List (κ × α)) : List (κ × List α) :=
  (items.map Prod.fst).eraseDups.map fun key => (key, membersIn items key)

theorem groups_concat (items : List (κ × α)) (item : κ × α) :
    groups (items ++ [item]) = insertEntry item.1 item.2 (groups items) := by
  rw [groups, groups, List.map_append, List.map_singleton, eraseDups_concat]
  have hmembers : ∀ key ∈ (items.map Prod.fst).eraseDups, (key, membersIn (items ++ [item]) key) =
      (key, membersIn items key ++ if item.1 = key then [item.2] else []) := fun key _ => by
    rw [membersIn_concat]
  -- A known key gets one more member, and a new one comes last with this member alone.
  by_cases h : item.1 ∈ items.map Prod.fst
  · rw [if_pos h, List.append_nil, insertEntry_map_of_mem (nodup_eraseDups _)
      (List.mem_eraseDups.mpr h), List.map_congr_left hmembers]
  · have hknown : item.1 ∉ (items.map Prod.fst).eraseDups := fun hm => h (List.mem_eraseDups.mp hm)
    have hnone : membersIn items item.1 = [] := by
      rw [membersIn, List.filter_eq_nil_iff.mpr, List.map_nil]
      intro other hother hkey
      exact h (beq_iff_eq.mp hkey ▸ List.mem_map_of_mem hother)
    have hother : ∀ key ∈ (items.map Prod.fst).eraseDups,
        (key, membersIn (items ++ [item]) key) = (key, membersIn items key) := by
      intro key hkey
      have hne : item.1 ≠ key := fun he => hknown (he ▸ hkey)
      rw [membersIn_concat, if_neg hne, List.append_nil]
    rw [if_neg h, insertEntry_map_of_not_mem hknown, List.map_append, List.map_singleton,
      List.map_congr_left hother, membersIn_concat, hnone, if_pos rfl, List.nil_append]

/-- The groups of a list: each key once, in the order in which the keys first come up, with its
    members in the order in which they come. -/
theorem entries_ofList (items : List (κ × α)) : (ofList items).entries = groups items := by
  induction items using List.reverseRecOn with
  | nil => rfl
  | append_singleton items item ih =>
      rw [groups_concat, ← ih, ofList, List.foldl_append]
      rfl

/-- No two groups stand under one key. -/
theorem nodup_keys_ofList (items : List (κ × α)) :
    ((ofList items).entries.map Prod.fst).Nodup := by
  have hkeys : (ofList items).entries.map Prod.fst = (items.map Prod.fst).eraseDups := by
    rw [entries_ofList, groups, List.map_map]
    exact List.map_id _
  rw [hkeys]
  exact nodup_eraseDups _

/-- The members of a group are those that are given with its key, and there is one. -/
theorem mem_entries_ofList {items : List (κ × α)} {e : κ × List α} :
    e ∈ (ofList items).entries ↔ e.1 ∈ items.map Prod.fst ∧ e.2 = membersIn items e.1 := by
  rw [entries_ofList, groups, List.mem_map]
  constructor
  · rintro ⟨key, hkey, rfl⟩
    exact ⟨List.mem_eraseDups.mp hkey, rfl⟩
  · rintro ⟨hkey, hmembers⟩
    exact ⟨e.1, List.mem_eraseDups.mpr hkey, Prod.ext rfl hmembers.symm⟩

/-- Every group stands under the key of some member. -/
theorem exists_of_mem_entries_ofList {items : List (κ × α)} {e : κ × List α}
    (h : e ∈ (ofList items).entries) : ∃ item ∈ items, item.1 = e.1 :=
  List.mem_map.mp (mem_entries_ofList.mp h).1

theorem mem_membersIn {items : List (κ × α)} {key : κ} {member : α} :
    member ∈ membersIn items key ↔ (key, member) ∈ items := by
  rw [membersIn, List.mem_map]
  constructor
  · rintro ⟨item, hitem, rfl⟩
    rw [List.mem_filter, beq_iff_eq] at hitem
    rw [← hitem.2]
    exact hitem.1
  · intro h
    exact ⟨(key, member), List.mem_filter.mpr ⟨h, beq_self_eq_true key⟩, rfl⟩

section Parts

variable (p : κ → Bool)

theorem eraseDups_filter (keys : List κ) :
    (keys.filter p).eraseDups = keys.eraseDups.filter p := by
  induction keys using List.reverseRecOn with
  | nil => rfl
  | append_singleton keys key ih =>
      rw [eraseDups_concat, List.filter_append, List.filter_append, ← ih]
      by_cases hp : p key = true
      · have hkeep : [key].filter p = [key] := List.filter_cons_of_pos hp
        rw [hkeep, eraseDups_concat]
        by_cases h : key ∈ keys
        · rw [if_pos h, if_pos (List.mem_filter.mpr ⟨h, hp⟩), List.filter_nil]
        · rw [if_neg h, if_neg fun hf => h (List.mem_filter.mp hf).1, hkeep]
      -- A key that is not wanted is dropped on either side, whether it is new or not.
      · have hdrop : [key].filter p = [] := List.filter_cons_of_neg hp
        by_cases h : key ∈ keys
        · rw [hdrop, if_pos h, List.filter_nil, List.append_nil, List.append_nil]
        · rw [hdrop, if_neg h, hdrop, List.append_nil, List.append_nil]

theorem membersIn_filter {key : κ} (hp : p key = true) (items : List (κ × α)) :
    membersIn (items.filter fun item => p item.1) key = membersIn items key := by
  rw [membersIn, membersIn, List.filter_filter]
  refine congrArg (List.map Prod.snd) (List.filter_congr fun item _ => ?_)
  by_cases h : item.1 = key
  · rw [h, hp, Bool.and_true]
  · rw [beq_eq_false_iff_ne.mpr h, Bool.false_and]

/-- The groups of a part of the members, chosen by keys, are that part of the groups. -/
theorem entries_ofList_filter (items : List (κ × α)) :
    (ofList (items.filter fun item => p item.1)).entries =
      (ofList items).entries.filter fun e => p e.1 := by
  rw [entries_ofList, entries_ofList, groups, groups, List.filter_map]
  have hkeys : ((items.filter fun item => p item.1).map Prod.fst).eraseDups =
      (items.map Prod.fst).eraseDups.filter p := by
    rw [← eraseDups_filter, List.filter_map]
    rfl
  rw [hkeys]
  exact List.map_congr_left fun key hkey => by
    rw [membersIn_filter p (List.mem_filter.mp hkey).2]

end Parts

/-- The members of one group, of members that are grouped by something they have themselves. -/
theorem membersIn_map_key (keyOf : α → κ) (as : List α) (key : κ) :
    membersIn (as.map fun a => (keyOf a, a)) key = as.filter fun a => keyOf a == key := by
  rw [membersIn, List.filter_map, List.map_map]
  exact List.map_id _

section Renaming

variable {ν : Type} [DecidableEq ν] (rename : κ → ν)

theorem eraseDups_map_of_injOn {keys : List κ}
    (h : ∀ a ∈ keys, ∀ b ∈ keys, rename a = rename b → a = b) :
    (keys.map rename).eraseDups = keys.eraseDups.map rename := by
  induction keys using List.reverseRecOn with
  | nil => rfl
  | append_singleton keys key ih =>
      have hkeys : ∀ a ∈ keys, ∀ b ∈ keys, rename a = rename b → a = b := by
        intro a ha b hb
        exact h a (List.mem_append_left _ ha) b (List.mem_append_left _ hb)
      -- The last key is new under its new name exactly when it is new under its own.
      have hknown : rename key ∈ keys.map rename ↔ key ∈ keys := by
        constructor
        · intro hmem
          rcases List.mem_map.mp hmem with ⟨a, ha, hname⟩
          rw [← h a (List.mem_append_left _ ha) key (List.mem_append_right _ List.mem_cons_self)
            hname]
          exact ha
        · exact List.mem_map_of_mem
      rw [List.map_append, List.map_singleton, eraseDups_concat, eraseDups_concat, ih hkeys,
        List.map_append]
      by_cases hkey : key ∈ keys
      · rw [if_pos (hknown.mpr hkey), if_pos hkey, List.map_nil]
      · rw [if_neg (fun hmem => hkey (hknown.mp hmem)), if_neg hkey, List.map_singleton]

theorem membersIn_rename {items : List (κ × α)} {key : κ}
    (h : ∀ item ∈ items, rename item.1 = rename key → item.1 = key) :
    membersIn (items.map fun item => (rename item.1, item.2)) (rename key) =
      membersIn items key := by
  rw [membersIn, membersIn, List.filter_map, List.map_map]
  refine congrArg (List.map Prod.snd) (List.filter_congr fun item hitem => ?_)
  rw [Function.comp_apply]
  by_cases hkey : item.1 = key
  · simp only [hkey, beq_self_eq_true]
  · rw [beq_eq_false_iff_ne.mpr hkey,
      beq_eq_false_iff_ne.mpr fun hname => hkey (h item hitem hname)]

/-- Names that tell the keys apart can stand in for them. -/
theorem groups_rename {items : List (κ × α)}
    (h : ∀ a ∈ items, ∀ b ∈ items, rename a.1 = rename b.1 → a.1 = b.1) :
    groups (items.map fun item => (rename item.1, item.2)) =
      (groups items).map fun e => (rename e.1, e.2) := by
  -- The keys are those of items, so on them the names differ as well.
  have hkeys : ∀ a ∈ items.map Prod.fst, ∀ b ∈ items.map Prod.fst, rename a = rename b → a = b := by
    intro a ha b hb hname
    rcases List.mem_map.mp ha with ⟨i, hi, rfl⟩
    rcases List.mem_map.mp hb with ⟨j, hj, rfl⟩
    exact h i hi j hj hname
  have hnames : (items.map fun item => (rename item.1, item.2)).map Prod.fst =
      (items.map Prod.fst).map rename := by
    rw [List.map_map, List.map_map]
    rfl
  rw [groups, groups, hnames, eraseDups_map_of_injOn rename hkeys, List.map_map, List.map_map]
  refine List.map_congr_left fun key hkey => ?_
  rcases List.mem_map.mp (List.mem_eraseDups.mp hkey) with ⟨j, hj, rfl⟩
  rw [Function.comp_apply, Function.comp_apply,
    membersIn_rename rename fun item hitem => h item hitem j hj]

end Renaming

end Grouping

end PackageSymbols

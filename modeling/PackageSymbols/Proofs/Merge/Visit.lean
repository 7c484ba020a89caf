import Mathlib.Data.List.Nodup
import PackageSymbols.Merge

/-!
# The Visit of Declarations

Merging sorts the declarations and then visits them one after another. Two facts
about these steps carry everything that is known about a merge.

Sorting is stable in the strong sense of `pairwise_sortBy_of_pairwise`: whatever
relation holds along the list before sorting still holds after it between
elements that the order does not tell apart. With the place in the list as the
relation, a sorted list is in strict order by name and place.

The visit keeps the first declaration of every key and refuses those that
disagree with it. `Selection.Reflects` says this of a selection and the
declarations visited so far. The seen values of the loop are not described
separately: they are the values of what was kept, and the invariant is that
looking up a key among the kept gives what looking it up among the visited does.

## Main definitions

* `firstOfKey?`: The first declaration of a key.
* `disagrees`: Whether a declaration has another value than the first of its key.
* `Selection.Reflects`: What a selection says of the declarations visited so far.

## Theorems

* `map_sortBy`: Sorting by an image sorts the image.
* `pairwise_sortBy_of_pairwise`: Sorting is stable.
* `Selection.reflects_visit`: One more visit.
* `Selection.reflects_visitAll`: The whole visit.
-/

namespace PackageSymbols

section Stability

variable {α β : Type}

theorem map_insertBy (le : α → α → Bool) (f : β → α) (b : β) (bs : List β) :
    (insertBy (fun x y => le (f x) (f y)) b bs).map f = insertBy le (f b) (bs.map f) := by
  induction bs with
  | nil => rfl
  | cons c cs ih =>
      rw [insertBy, List.map_cons, insertBy]
      by_cases h : le (f b) (f c) = true
      · rw [if_pos h, if_pos h, List.map_cons, List.map_cons]
      · rw [if_neg h, if_neg h, List.map_cons, ih]

/-- Sorting by an image sorts the image. -/
theorem map_sortBy (le : α → α → Bool) (f : β → α) (bs : List β) :
    (sortBy (fun x y => le (f x) (f y)) bs).map f = sortBy le (bs.map f) := by
  induction bs with
  | nil => rfl
  | cons b bs ih => rw [sortBy, map_insertBy, ih, List.map_cons, sortBy]

/-- The relation that sorting establishes: in order, and as before where the order is silent. -/
def StablyBefore (le : α → α → Bool) (r : α → α → Prop) (a b : α) : Prop :=
  le a b = true ∧ (le b a = true → r a b)

variable {le : α → α → Bool} (trans : ∀ a b c, le a b = true → le b c = true → le a c = true)
  (total : ∀ a b, le a b = true ∨ le b a = true) {r : α → α → Prop}

include trans total

theorem pairwise_insertBy_of_forall {a : α} {bs : List α} (ha : ∀ b ∈ bs, r a b)
    (h : bs.Pairwise (StablyBefore le r)) :
    (insertBy le a bs).Pairwise (StablyBefore le r) := by
  induction bs with
  | nil => exact List.pairwise_singleton _ a
  | cons b bs ih =>
      have hb := List.pairwise_cons.mp h
      rw [insertBy]
      by_cases hab : le a b = true
      -- The new element goes in front, so it stands to all others as it did before.
      · rw [if_pos hab]
        refine List.pairwise_cons.mpr ⟨fun c hc => ⟨?_, fun _ => ha c hc⟩, h⟩
        rcases List.mem_cons.mp hc with rfl | hc
        · exact hab
        · exact trans a b c hab (hb.1 c hc).1
      · rw [if_neg hab]
        refine List.pairwise_cons.mpr ⟨fun c hc => ?_, ih (fun c hc =>
          ha c (List.mem_cons_of_mem b hc)) hb.2⟩
        rcases List.mem_cons.mp ((insertBy_perm le a bs).mem_iff.mp hc) with rfl | hc
        · -- The new element went behind `b` because it may not precede it.
          exact ⟨(total b c).resolve_right hab, fun hcb => absurd hcb hab⟩
        · exact hb.1 c hc

/-- Sorting is stable: a relation that holds along a list still holds, after sorting, between
    elements that may precede each other. -/
theorem pairwise_sortBy_of_pairwise {as : List α} (h : as.Pairwise r) :
    (sortBy le as).Pairwise (StablyBefore le r) := by
  induction as with
  | nil => exact List.Pairwise.nil
  | cons a as ih =>
      have ha := List.pairwise_cons.mp h
      rw [sortBy]
      exact pairwise_insertBy_of_forall trans total (fun b hb => ha.1 b (mem_sortBy.mp hb))
        (ih ha.2)

end Stability

section Loop

variable {α : Type} [DecidableEq α]

/-- The first declaration of a key. -/
def firstOfKey? (ds : List (Declaration α)) (key : String) : Option (Declaration α) :=
  ds.find? fun d => d.key == key

/-- Whether a declaration has another value than the first of its key. -/
def disagrees (ds : List (Declaration α)) (d : Declaration α) : Bool :=
  (firstOfKey? ds d.key).any fun k => decide (k.value ≠ d.value)

omit [DecidableEq α] in
theorem firstOfKey?_isSome {ds : List (Declaration α)} {d : Declaration α} (h : d ∈ ds) :
    ∃ k, firstOfKey? ds d.key = some k := by
  rw [← Option.isSome_iff_exists, firstOfKey?, List.find?_isSome]
  exact ⟨d, h, beq_self_eq_true d.key⟩

omit [DecidableEq α] in
theorem key_of_firstOfKey? {ds : List (Declaration α)} {key : String} {k : Declaration α}
    (h : firstOfKey? ds key = some k) : k.key = key := by
  rw [firstOfKey?] at h
  have hkey := List.find?_some h
  exact beq_iff_eq.mp hkey

omit [DecidableEq α] in
theorem firstOfKey?_append (ds es : List (Declaration α)) (key : String) :
    firstOfKey? (ds ++ es) key = (firstOfKey? ds key).or (firstOfKey? es key) :=
  List.find?_append

omit [DecidableEq α] in
theorem firstOfKey?_singleton (d : Declaration α) (key : String) :
    firstOfKey? [d] key = if d.key = key then some d else none := by
  by_cases h : d.key = key
  · simp only [firstOfKey?, List.find?_cons, beq_iff_eq.mpr h, if_pos h]
  · simp only [firstOfKey?, List.find?_cons, beq_eq_false_iff_ne.mpr h, if_neg h, List.find?_nil]

omit [DecidableEq α] in
/-- A key that has come up keeps its first declaration whatever follows. -/
theorem firstOfKey?_append_of_some {ds : List (Declaration α)} {key : String}
    {k : Declaration α} (h : firstOfKey? ds key = some k) (es : List (Declaration α)) :
    firstOfKey? (ds ++ es) key = some k := by
  rw [firstOfKey?_append, h, Option.some_or]

/-- What comes later does not change whether a declaration disagrees. -/
theorem disagrees_append {ds : List (Declaration α)} {d : Declaration α} (h : d ∈ ds)
    (es : List (Declaration α)) : disagrees (ds ++ es) d = disagrees ds d := by
  rcases firstOfKey?_isSome h with ⟨k, hk⟩
  rw [disagrees, disagrees, firstOfKey?_append_of_some hk, hk]

theorem filter_disagrees_append (ds : List (Declaration α)) (d : Declaration α) :
    (ds ++ [d]).filter (disagrees (ds ++ [d])) =
      ds.filter (disagrees ds) ++ if disagrees (ds ++ [d]) d then [d] else [] := by
  have hds : ds.filter (disagrees (ds ++ [d])) = ds.filter (disagrees ds) :=
    List.filter_congr fun e he => disagrees_append he [d]
  -- Only the last declaration is judged anew; the others are judged by what came before it.
  rw [List.filter_append, hds, List.filter_cons, List.filter_nil]

namespace Selection

/-- What a selection says of the declarations visited so far: it kept the first of every key,
    and refused those that disagree with it. -/
structure Reflects (s : Selection α) (ds : List (Declaration α)) : Prop where
  first : ∀ key, firstOfKey? s.kept key = firstOfKey? ds key
  nodup : (s.kept.map (·.key)).Nodup
  refused : s.refused = ds.filter (disagrees ds)

theorem reflects_empty : (empty : Selection α).Reflects [] :=
  ⟨fun _ => rfl, List.nodup_nil, rfl⟩

/-- One more visit. -/
theorem reflects_visit {s : Selection α} {ds : List (Declaration α)} (h : s.Reflects ds)
    (d : Declaration α) : (s.visit d).Reflects (ds ++ [d]) := by
  have hfind : s.kept.find? (fun k => k.key == d.key) = firstOfKey? ds d.key := h.first d.key
  rw [visit, hfind]
  cases hk : firstOfKey? ds d.key with
  | none =>
      -- A new key: the declaration is kept and agrees with itself.
      have hkeys : d.key ∉ s.kept.map (·.key) := by
        intro hmem
        rcases List.mem_map.mp hmem with ⟨k, hks, hkey⟩
        rcases firstOfKey?_isSome hks with ⟨k', hk'⟩
        rw [hkey, h.first, hk] at hk'
        exact absurd hk' (by simp only [reduceCtorEq, not_false_eq_true])
      have hagrees : disagrees (ds ++ [d]) d = false := by
        rw [disagrees, firstOfKey?_append, hk, Option.none_or, firstOfKey?_singleton, if_pos rfl,
          Option.any_some, decide_eq_false (not_not_intro rfl)]
      refine ⟨fun key => ?_, ?_, ?_⟩
      · rw [firstOfKey?_append, firstOfKey?_append, h.first]
      -- The key of what is kept now is not among those that were kept.
      · rw [List.map_append, List.nodup_append]
        refine ⟨h.nodup, List.nodup_singleton _, fun a ha b hb hab => hkeys ?_⟩
        rw [List.map_singleton, List.mem_singleton] at hb
        rw [← hb, ← hab]
        exact ha
      · rw [filter_disagrees_append, hagrees, h.refused, if_neg Bool.false_ne_true,
          List.append_nil]
  | some k =>
      -- A known key: nothing is kept, and the value decides.
      -- The declaration is the first of no key, so the first of each key stays what it was.
      have hfirst : ∀ key, firstOfKey? s.kept key = firstOfKey? (ds ++ [d]) key := by
        intro key
        rw [h.first, firstOfKey?_append, firstOfKey?_singleton]
        by_cases hkey : d.key = key
        · rw [← hkey, hk, Option.some_or]
        · rw [if_neg hkey, Option.or_none]
      have hvalue : disagrees (ds ++ [d]) d = decide (k.value ≠ d.value) := by
        rw [disagrees, firstOfKey?_append_of_some hk, Option.any_some]
      simp only []
      by_cases hv : k.value = d.value
      · rw [if_pos hv]
        refine ⟨hfirst, h.nodup, ?_⟩
        rw [filter_disagrees_append, hvalue, decide_eq_false (not_not_intro hv), h.refused,
          if_neg Bool.false_ne_true, List.append_nil]
      · rw [if_neg hv]
        refine ⟨hfirst, h.nodup, ?_⟩
        rw [filter_disagrees_append, hvalue, decide_eq_true hv, if_pos rfl]
        exact congrArg (· ++ [d]) h.refused

theorem reflects_visitAll_of_reflects {s : Selection α} {done : List (Declaration α)}
    (h : s.Reflects done) (ds : List (Declaration α)) :
    (s.visitAll ds).Reflects (done ++ ds) := by
  induction ds generalizing s done with
  | nil =>
      rw [List.append_nil]
      exact h
  | cons d ds ih =>
      -- The visit is done from the left, so what was visited grows at its end.
      have hrest := ih (reflects_visit h d)
      rw [List.append_assoc, List.singleton_append] at hrest
      exact hrest

/-- The whole visit. -/
theorem reflects_visitAll (ds : List (Declaration α)) : (empty.visitAll ds).Reflects ds :=
  reflects_visitAll_of_reflects reflects_empty ds

/-- What is kept is the first of its key. -/
theorem Reflects.first_of_mem {s : Selection α} {ds : List (Declaration α)} (h : s.Reflects ds)
    {k : Declaration α} (hk : k ∈ s.kept) : firstOfKey? ds k.key = some k := by
  rcases firstOfKey?_isSome hk with ⟨k', hk'⟩
  have hmem : k' ∈ s.kept := List.mem_of_find?_eq_some hk'
  have hkey : k'.key = k.key := key_of_firstOfKey? hk'
  -- Two of the kept with one key are the same.
  have heq : k' = k := List.inj_on_of_nodup_map h.nodup hmem hk hkey
  rw [← h.first, hk', heq]

/-- Every key that was visited has its first declaration among the kept. -/
theorem Reflects.mem_kept {s : Selection α} {ds : List (Declaration α)} (h : s.Reflects ds)
    {key : String} {k : Declaration α} (hk : firstOfKey? ds key = some k) : k ∈ s.kept := by
  rw [← h.first] at hk
  exact List.mem_of_find?_eq_some hk

end Selection

end Loop

end PackageSymbols

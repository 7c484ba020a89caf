import Mathlib.Data.List.Nodup
import PackageSymbols.Sorting

/-!
# Lists in the Order of Names

What is generated is told in the order of its names, and in one list no name
comes twice. Both together leave no choice: such a list can be told from what is
in it. This is where the order of the documents is forgotten, since whatever they
put into a list, and in whatever order, the list comes out the same.

## Theorems

* `increasing_sortBy`: Sorting elements with different names by their names puts
  them in strict order.
* `nodup_of_increasing`: In strict order no name comes twice.
* `eq_of_increasing`: Lists in strict order that hold the same are the same.
-/

namespace PackageSymbols

variable {α : Type} {name : α → String}

/-- Elements with different names are in strict order once they are sorted by their names. -/
theorem increasing_sortBy {as : List α} (h : (as.map name).Nodup) :
    (sortBy (fun a b => decide (name a ≤ name b)) as).Pairwise fun a b => name a < name b := by
  have hsorted : (sortBy (fun a b => decide (name a ≤ name b)) as).Pairwise
      fun a b => decide (name a ≤ name b) = true := by
    refine pairwise_sortBy (fun a b c hab hbc => ?_) (fun a b => ?_) as
    · exact decide_eq_true (String.le_trans (of_decide_eq_true hab) (of_decide_eq_true hbc))
    · exact (String.le_total (name a) (name b)).imp decide_eq_true decide_eq_true
  -- Sorting only moves the names, so they are still different.
  have hnames : ((sortBy (fun a b => decide (name a ≤ name b)) as).map name).Nodup :=
    ((sortBy_perm _ _).map name).nodup_iff.mpr h
  refine (hsorted.and (List.pairwise_map.mp hnames)).imp (fun {a b} hab => ?_)
  have hle : name a ≤ name b := of_decide_eq_true hab.1
  exact String.not_le.mp fun hge => hab.2 (String.le_antisymm hle hge)

/-- No name comes twice in a list in strict order of names. -/
theorem nodup_of_increasing {as : List α} (h : as.Pairwise fun a b => name a < name b) :
    (as.map name).Nodup := by
  refine List.pairwise_map.mpr (h.imp (fun {a b} hlt heq => ?_))
  rw [heq] at hlt
  exact String.lt_irrefl (name b) hlt

/-- Lists in strict order of names are the same if they hold the same. -/
theorem eq_of_increasing {as bs : List α} (has : as.Pairwise fun a b => name a < name b)
    (hbs : bs.Pairwise fun a b => name a < name b) (h : ∀ a, a ∈ as ↔ a ∈ bs) : as = bs := by
  have hperm : as.Perm bs := (List.perm_ext_iff_of_nodup (nodup_of_increasing has).of_map
    (nodup_of_increasing hbs).of_map).mpr h
  exact hperm.eq_of_pairwise (fun _ _ _ _ hab hba => absurd hba (String.lt_asymm hab)) has hbs

end PackageSymbols

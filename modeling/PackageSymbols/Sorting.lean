/-!
# Stable Sorting

Merging visits declarations in the order of their names and tells what it kept
in the order of other names. Elements that the order does not tell apart keep
the order they came in, which is the order of the documents; this is what lets
the first document win. Sorting inserts one element after another, the last
first, so that it evaluates step by step along the list.

## Main definitions

* `insertBy`: An element put into its place in a sorted list.
* `sortBy`: A list in a given order.

## Theorems

* `sortBy_perm`: Sorting neither adds nor drops anything.
* `pairwise_sortBy`: The result is in order.
-/

namespace PackageSymbols

variable {α : Type}

/-- Puts an element before the first one that it may precede. -/
def insertBy (le : α → α → Bool) (a : α) : List α → List α
  | [] => [a]
  | b :: bs => if le a b then a :: b :: bs else b :: insertBy le a bs

/-- Sorts a list. Elements that may precede each other keep their order. -/
def sortBy (le : α → α → Bool) : List α → List α
  | [] => []
  | a :: as => insertBy le a (sortBy le as)

/-- An inserted element is added to what was there. -/
theorem insertBy_perm (le : α → α → Bool) (a : α) (as : List α) :
    (insertBy le a as).Perm (a :: as) := by
  induction as with
  | nil => exact List.Perm.refl _
  | cons b bs ih =>
      rw [insertBy]
      split
      · exact List.Perm.refl _
      · exact (ih.cons b).trans (List.Perm.swap a b bs)

/-- Sorting neither adds nor drops anything. -/
theorem sortBy_perm (le : α → α → Bool) (as : List α) : (sortBy le as).Perm as := by
  induction as with
  | nil => exact List.Perm.refl _
  | cons a as ih => exact (insertBy_perm le a (sortBy le as)).trans (ih.cons a)

/-- A sorted list holds the same elements. -/
@[simp] theorem mem_sortBy {le : α → α → Bool} {as : List α} {a : α} :
    a ∈ sortBy le as ↔ a ∈ as :=
  (sortBy_perm le as).mem_iff

section Order

variable {le : α → α → Bool} (trans : ∀ a b c, le a b = true → le b c = true → le a c = true)
  (total : ∀ a b, le a b = true ∨ le b a = true)

include trans total

/-- Inserting keeps a list in order. -/
theorem pairwise_insertBy (a : α) {as : List α} (h : as.Pairwise fun b c => le b c = true) :
    (insertBy le a as).Pairwise fun b c => le b c = true := by
  induction as with
  | nil => exact List.pairwise_singleton _ a
  | cons b bs ih =>
      have hb := List.pairwise_cons.mp h
      rw [insertBy]
      split
      · next hab =>
          refine List.pairwise_cons.mpr ⟨fun c hc => ?_, h⟩
          rcases List.mem_cons.mp hc with rfl | hc
          · exact hab
          · exact trans a b c hab (hb.1 c hc)
      · next hab =>
          refine List.pairwise_cons.mpr ⟨fun c hc => ?_, ih hb.2⟩
          rcases List.mem_cons.mp ((insertBy_perm le a bs).mem_iff.mp hc) with rfl | hc
          · exact (total b c).resolve_right hab
          · exact hb.1 c hc

/-- A sorted list is in order. -/
theorem pairwise_sortBy (as : List α) : (sortBy le as).Pairwise fun b c => le b c = true := by
  induction as with
  | nil => exact List.Pairwise.nil
  | cons a as ih => exact pairwise_insertBy trans total a ih

end Order

end PackageSymbols

import PackageSymbols.Proofs.Merge.Agreement

/-!
# Merging What Was Merged Already

A declaration that repeats an earlier one changes nothing about what is kept.
Sorting puts it among the others of its name, so it is visited before much of what
was declared before it, and it may well be visited before the winner of another
key. What matters is only its own key. There the declaration that it repeats has
the same name and comes earlier, so whatever is ahead of that one is ahead of the
repetition too, and the winner stays where it was. Nothing is assumed about the
declarations themselves; they may contradict each other in any way.

Paths play no part in this, so a repetition may come from another document.
Reports are another matter, since a declaration that was refused is refused
again. But there is a report after the repetition only if there was one before.

## Main definitions

* `Repeats`: Each declaration of a row was made in another row already.

## Theorems

* `mem_constants_of_isLeastOfKey`: The least declaration of a key is kept.
* `IsLeastOfKey.append`: It is still the least when declarations are repeated.
* `constants_append_of_repeats`: Repetitions change nothing about what is kept.
* `agree_append_iff`: Nor do they bring up the first conflict.
-/

namespace PackageSymbols

variable {α : Type}

/-- Whether all of a row says what was said in another row already, maybe in other documents. -/
def Repeats (ds es : List (Declaration α)) : Prop :=
  ∀ e ∈ es, ∃ d ∈ ds, d.constant = e.constant

/-- What is ahead of a declaration is ahead of each one behind it that is written alike. -/
theorem VisitedBefore.of_repeated {a b c : Declaration α × Nat} (h : b = a ∨ VisitedBefore a b)
    (hwritten : b.1.written = c.1.written) (hlt : b.2 < c.2) : VisitedBefore a c := by
  rcases h with rfl | hless | ⟨heq, hless⟩
  · exact Or.inr ⟨hwritten, hlt⟩
  · exact Or.inl (hwritten ▸ hless)
  · exact Or.inr ⟨heq.trans hwritten, by omega⟩

/-- The least of a key is still the least when declarations are repeated behind it. -/
theorem IsLeastOfKey.append {ds es : List (Declaration α)} {a : Declaration α × Nat}
    (h : IsLeastOfKey ds a) (hrep : Repeats ds es) : IsLeastOfKey (ds ++ es) a := by
  unfold IsLeastOfKey
  rw [List.zipIdx_append]
  refine ⟨List.mem_append_left _ h.1, ?_⟩
  intro b hb hkey
  rcases List.mem_append.mp hb with hb | hb
  · exact h.2 b hb hkey
  · -- What `b` repeats has a place among the first, so it comes before `b`.
    rcases hrep b.1 (List.fst_mem_of_mem_zipIdx hb) with ⟨d, hd, hsame⟩
    rcases List.mem_iff_getElem?.mp hd with ⟨i, hi⟩
    have hnumbered : (d, i) ∈ ds.zipIdx := List.mem_zipIdx_iff_getElem?.mpr hi
    have hwritten : d.written = b.1.written := congrArg Constant.written hsame
    have hdkey : d.key = a.1.key := (congrArg Constant.name hsame).trans hkey
    have hfirst : i < ds.length := (List.getElem?_eq_some_iff.mp hi).1
    have hbehind := List.le_snd_of_mem_zipIdx hb
    exact Or.inr (VisitedBefore.of_repeated (h.2 (d, i) hnumbered hdkey) hwritten
      (by simp only; omega))

variable [DecidableEq α]

/-- The least declaration of a key is the one that is kept. -/
theorem mem_constants_of_isLeastOfKey {ds : List (Declaration α)} {a : Declaration α × Nat}
    (h : IsLeastOfKey ds a) : a.1.constant ∈ (merge ds).constants := by
  rcases exists_constant_of_mem (List.fst_mem_of_mem_zipIdx h.1) with ⟨c, hc, hname⟩
  rcases (firstWins_merge ds).least c hc with ⟨b, hb, rfl⟩
  -- Both are the least of the key, and none of two is before the other then.
  have hsame : b = a := by
    rcases h.2 b hb.1 hname with heq | hab
    · exact heq
    · rcases hb.2 a h.1 hname.symm with heq | hba
      · exact heq.symm
      · exact absurd hba hab.asymm
  rw [← hsame]
  exact hc

/-- Declarations that repeat others change nothing about what is kept. -/
theorem constants_append_of_repeats {ds es : List (Declaration α)} (h : Repeats ds es) :
    (merge (ds ++ es)).constants = (merge ds).constants := by
  have hkept : ∀ c ∈ (merge ds).constants, c ∈ (merge (ds ++ es)).constants := by
    intro c hc
    rcases (firstWins_merge ds).least c hc with ⟨a, ha, rfl⟩
    exact mem_constants_of_isLeastOfKey (ha.append h)
  refine eq_of_increasing (increasing_constants _) (increasing_constants _) fun c => ?_
  constructor
  · intro hc
    -- The key was declared before, so a constant stands under it already, and it is kept still.
    have hdeclared : ∃ d ∈ ds, d.key = c.name := by
      rcases exists_declaration_of_mem _ hc with ⟨e, he, hname, _⟩
      rcases List.mem_append.mp he with he | he
      · exact ⟨e, he, hname⟩
      · rcases h e he with ⟨d, hd, hsame⟩
        exact ⟨d, hd, (congrArg Constant.name hsame).trans hname⟩
    rcases hdeclared with ⟨d, hd, hkey⟩
    rcases exists_constant_of_mem hd with ⟨k, hk, hname⟩
    rw [eq_of_name_eq hc (hkept k hk) (hkey.symm.trans hname.symm)]
    exact hk
  · exact hkept c

omit [DecidableEq α] in
/-- Declarations that repeat others contradict nothing that was not contradicted before. -/
theorem agree_append_iff {ds es : List (Declaration α)} (h : Repeats ds es) :
    Agree (ds ++ es) ↔ Agree ds := by
  constructor
  · intro hagree
    exact hagree.of_subset (List.subset_append_left ds es)
  · intro hagree
    -- In place of a repetition one may take what it repeats.
    have hfirst : ∀ d ∈ ds ++ es, ∃ f ∈ ds, f.constant = d.constant := by
      intro d hd
      rcases List.mem_append.mp hd with hd | hd
      · exact ⟨d, hd, rfl⟩
      · exact h d hd
    intro d hd e he hkey
    rcases hfirst d hd with ⟨f, hf, hfd⟩
    rcases hfirst e he with ⟨g, hg, hge⟩
    have hkeys : f.key = g.key :=
      (congrArg Constant.name hfd).trans (hkey.trans (congrArg Constant.name hge).symm)
    have hvalue := hagree f hf g hg hkeys
    exact (congrArg Constant.value hfd).symm.trans (hvalue.trans (congrArg Constant.value hge))

end PackageSymbols

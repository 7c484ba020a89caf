import PackageSymbols.Proofs.Merge.FirstWins

/-!
# Merges Without Conflict

A merge that reports nothing has lost nothing: every declaration has the value
of the constant of its key. Whether it reports anything can be told from the
declarations alone, without their order. They must agree, two of one key on one
value. What agrees still agrees when some of it is left out, which is why a
conflict-free scope can be split in any way without a conflict coming up.

## Main definitions

* `Agree`: Declarations of one key have one value.

## Theorems

* `increasing_constants`, `eq_of_name_eq`: The constants of a merge are in the strict
  order of their names, so no two share one.
* `merge_silent_iff`: A merge is silent exactly when the declarations agree.
* `Agree.exists_constant`: Then every declaration has its constant.
* `refusal_of_mem_merge`, `conflictingSymbol_of_mem_merge`: What a merge reports.
-/

namespace PackageSymbols

variable {α : Type} [DecidableEq α]

/-- Whether declarations of one key have one value. -/
def Agree (ds : List (Declaration α)) : Prop :=
  ∀ d ∈ ds, ∀ e ∈ ds, d.key = e.key → d.value = e.value

omit [DecidableEq α] in
theorem Agree.of_subset {ds es : List (Declaration α)} (h : Agree ds) (hsub : es ⊆ ds) :
    Agree es :=
  fun d hd e he => h d (hsub hd) e (hsub he)

theorem exists_constant_of_mem {ds : List (Declaration α)} {d : Declaration α} (h : d ∈ ds) :
    ∃ c ∈ (merge ds).constants, c.name = d.key :=
  List.mem_map.mp (((firstWins_merge ds).names d.key).mpr (List.mem_map_of_mem h))

/-- Each constant of a merge is that of a declaration. -/
theorem exists_constant_eq_of_mem {ds : List (Declaration α)} {c : Constant α}
    (h : c ∈ (merge ds).constants) : ∃ d ∈ ds, d.constant = c := by
  rcases (firstWins_merge ds).least c h with ⟨a, ha, rfl⟩
  exact ⟨a.1, List.fst_mem_of_mem_zipIdx ha.1, rfl⟩

theorem exists_declaration_of_mem (ds : List (Declaration α)) {c : Constant α}
    (h : c ∈ (merge ds).constants) : ∃ d ∈ ds, d.key = c.name ∧ d.value = c.value := by
  rcases exists_constant_eq_of_mem h with ⟨d, hd, rfl⟩
  exact ⟨d, hd, rfl, rfl⟩

theorem increasing_constants (ds : List (Declaration α)) :
    (merge ds).constants.Pairwise fun a b => a.name < b.name :=
  List.pairwise_map.mp (firstWins_merge ds).increasing

theorem nodup_names_constants (ds : List (Declaration α)) :
    ((merge ds).constants.map (·.name)).Nodup :=
  nodup_of_increasing (increasing_constants ds)

/-- No two constants of a merge share a name. -/
theorem eq_of_name_eq {ds : List (Declaration α)} {c e : Constant α}
    (hc : c ∈ (merge ds).constants) (he : e ∈ (merge ds).constants) (h : c.name = e.name) :
    c = e :=
  List.inj_on_of_nodup_map (nodup_names_constants ds) hc he h

/-- A merge reports nothing exactly when the declarations agree. -/
theorem merge_silent_iff (ds : List (Declaration α)) :
    (merge ds).diagnostics = [] ↔ Agree ds := by
  rcases (firstWins_merge ds).reports with ⟨refused, _, hrefused, hreports⟩
  rw [hreports, List.map_eq_nil_iff, List.eq_nil_iff_forall_not_mem]
  constructor
  · intro hnone d hd e he hkey
    rcases exists_constant_of_mem hd with ⟨c, hc, hname⟩
    -- Nobody was refused, so whoever has the key of the constant has its value.
    have hvalue : ∀ f ∈ ds, f.key = d.key → c.value = f.value := by
      intro f hf hfkey
      rcases List.mem_iff_getElem?.mp hf with ⟨i, hi⟩
      have hnumbered : (f, i) ∈ ds.zipIdx := List.mem_zipIdx_iff_getElem?.mpr hi
      by_contra hne
      exact hnone (f, i) ((hrefused (f, i)).mpr ⟨hnumbered, c, hc, hname.trans hfkey.symm, hne⟩)
    rw [← hvalue d hd rfl, hvalue e he hkey.symm]
  · intro hagree a ha
    rcases (hrefused a).mp ha with ⟨hmem, c, hc, hname, hne⟩
    rcases exists_declaration_of_mem ds hc with ⟨d, hd, hkey, hvalue⟩
    have heq := hagree d hd a.1 (List.fst_mem_of_mem_zipIdx hmem) (hkey.trans hname)
    exact hne (hvalue.symm.trans heq)

/-- Declarations that agree all have a constant with their key and their value. -/
theorem Agree.exists_constant {ds : List (Declaration α)} (h : Agree ds) {d : Declaration α}
    (hd : d ∈ ds) : ∃ c ∈ (merge ds).constants, c.name = d.key ∧ c.value = d.value := by
  rcases exists_constant_of_mem hd with ⟨c, hc, hname⟩
  rcases exists_declaration_of_mem ds hc with ⟨e, he, hkey, hvalue⟩
  exact ⟨c, hc, hname, hvalue.symm.trans (h e he d hd (hkey.trans hname))⟩

/-- A merge only reports declarations that disagree with another of their key. -/
theorem refusal_of_mem_merge {ds : List (Declaration α)} {report : Diagnostic}
    (h : report ∈ (merge ds).diagnostics) :
    ∃ d ∈ ds, ∃ e ∈ ds, d.key = e.key ∧ d.value ≠ e.value ∧ report = d.refusal := by
  rcases (firstWins_merge ds).reports with ⟨refused, _, hrefused, hreports⟩
  rw [hreports] at h
  rcases List.mem_map.mp h with ⟨a, ha, rfl⟩
  rcases (hrefused a).mp ha with ⟨hmem, c, hc, hname, hne⟩
  rcases exists_constant_eq_of_mem hc with ⟨e, he, rfl⟩
  exact ⟨a.1, List.fst_mem_of_mem_zipIdx hmem, e, he, hname.symm, hne.symm, rfl⟩

/-- A merge reports nothing but conflicts between symbols. -/
theorem conflictingSymbol_of_mem_merge {ds : List (Declaration α)} {report : Diagnostic}
    (h : report ∈ (merge ds).diagnostics) :
    ∃ written, report.problem = .conflictingSymbol written := by
  rcases refusal_of_mem_merge h with ⟨d, _, _, _, _, _, rfl⟩
  exact ⟨d.written, rfl⟩

end PackageSymbols

import PackageSymbols.Proofs.Merge.Agreement
import PackageSymbols.Proofs.Sorting

/-!
# What a Merge Keeps Without the Order of Documents

The order of the documents decides between declarations of one key that are
written alike, and nothing else: others are visited in the order of their names.
If declarations that are written alike have one value, which of them is met first
is of no consequence, and what is kept can be told without the order. It is what
the foremost declarations lead to, those that are least of their key by the name
as written. So two rows of declarations that hold the same lead to the same
constants, however often each declaration is repeated. Reports are counted, so for
them the rows have to be the same up to order.

Declarations of one key may still have different values here. Declarations that
agree are a special case.

## Main definitions

* `IsForemost`: The least declarations of a key, by the name as written.
* `Unambiguous`: Declarations of one key that are written alike have one value.
* `contradicts`: Whether a declaration has another value than what is kept.

## Theorems

* `mem_constants_iff`: What is kept are the foremost declarations.
* `constants_eq_of_mem_iff`: Merges of the same declarations keep the same.
* `diagnostics_perm`: In another order, they report the same, each as often.
* `Agree.of_mem_iff`: Whether declarations agree can be told from what they are.
-/

namespace PackageSymbols

variable {α : Type}

/-- Whether a declaration is one of those whose name as written is the least of its key. -/
def IsForemost (ds : List (Declaration α)) (d : Declaration α) : Prop :=
  d ∈ ds ∧ ∀ e ∈ ds, e.key = d.key → d.written ≤ e.written

/-- Whether declarations of one key that are written alike have one value. -/
def Unambiguous (ds : List (Declaration α)) : Prop :=
  ∀ d ∈ ds, ∀ e ∈ ds, d.key = e.key → d.written = e.written → d.value = e.value

theorem Agree.unambiguous {ds : List (Declaration α)} (h : Agree ds) : Unambiguous ds :=
  fun d hd e he hkey _ => h d hd e he hkey

theorem Agree.of_mem_iff {ds es : List (Declaration α)} (h : Agree ds)
    (hsame : ∀ d, d ∈ ds ↔ d ∈ es) : Agree es :=
  h.of_subset fun d hd => (hsame d).mpr hd

theorem isForemost_congr {ds es : List (Declaration α)} (hsame : ∀ d, d ∈ ds ↔ d ∈ es)
    (d : Declaration α) : IsForemost ds d ↔ IsForemost es d := by
  simp only [IsForemost, hsame]

/-- A declaration that is least of its key is foremost. -/
theorem isForemost_of_isLeastOfKey {ds : List (Declaration α)} {a : Declaration α × Nat}
    (h : IsLeastOfKey ds a) : IsForemost ds a.1 := by
  refine ⟨List.fst_mem_of_mem_zipIdx h.1, fun e he hkey => ?_⟩
  rcases List.mem_iff_getElem?.mp he with ⟨i, hi⟩
  rcases h.2 (e, i) (List.mem_zipIdx_iff_getElem?.mpr hi) hkey with rfl | hlt | ⟨heq, _⟩
  · exact String.le_refl e.written
  · exact String.not_lt.mp (String.lt_asymm hlt)
  · exact (congrArg (· ≤ e.written) heq).mpr (String.le_refl e.written)

variable [DecidableEq α]

/-- What a merge keeps are the foremost declarations, if those that are written alike have one
    value. -/
theorem mem_constants_iff {ds : List (Declaration α)} (h : Unambiguous ds) {c : Constant α} :
    c ∈ (merge ds).constants ↔ ∃ d, IsForemost ds d ∧ d.constant = c := by
  constructor
  · intro hc
    rcases (firstWins_merge ds).least c hc with ⟨a, ha, rfl⟩
    exact ⟨a.1, isForemost_of_isLeastOfKey ha, rfl⟩
  · rintro ⟨d, ⟨hd, hleast⟩, rfl⟩
    -- The constant of the key comes from a foremost declaration too, which is written alike.
    rcases exists_constant_of_mem hd with ⟨c, hc, hname⟩
    rcases (firstWins_merge ds).least c hc with ⟨a, ha, rfl⟩
    rcases isForemost_of_isLeastOfKey ha with ⟨hmem, hforemost⟩
    have hkey : a.1.key = d.key := hname
    have hwritten : a.1.written = d.written :=
      String.le_antisymm (hforemost d hd hkey.symm) (hleast a.1 hmem hkey)
    have hvalue : a.1.value = d.value := h a.1 hmem d hd hkey hwritten
    have hconstant : d.constant = a.1.constant := by
      rw [Declaration.constant, Declaration.constant, hkey, hwritten, hvalue]
    rw [hconstant]
    exact hc

/-- Merges of the same declarations, in any order and repeated in any way, keep the same. -/
theorem constants_eq_of_mem_iff {ds es : List (Declaration α)} (h : Unambiguous ds)
    (hsame : ∀ d, d ∈ ds ↔ d ∈ es) : (merge ds).constants = (merge es).constants := by
  have hes : Unambiguous es := fun d hd e he =>
    h d ((hsame d).mpr hd) e ((hsame e).mpr he)
  refine eq_of_increasing (increasing_constants ds) (increasing_constants es) (fun c => ?_)
  rw [mem_constants_iff h, mem_constants_iff hes]
  simp only [isForemost_congr hsame]

/-- Whether a declaration has another value than the constant that stands under its key. -/
def contradicts (kept : List (Constant α)) (d : Declaration α) : Bool :=
  kept.any fun c => c.name == d.key && decide (c.value ≠ d.value)

/-- The reports of a merge are those of the declarations that contradict what is kept, told
    without the order of the visit. -/
theorem diagnostics_perm_filter (ds : List (Declaration α)) :
    (merge ds).diagnostics.Perm
      ((ds.filter (contradicts (merge ds).constants)).map Declaration.refusal) := by
  rcases (firstWins_merge ds).reports with ⟨refused, hpairwise, hrefused, hreports⟩
  have hnumbers : ds.zipIdx.Nodup := by
    refine (pairwise_zipIdx_lt ds).imp ?_
    intro a b hlt heq
    rw [heq] at hlt
    exact Nat.lt_irrefl _ hlt
  have hnodup : refused.Nodup := by
    refine hpairwise.imp ?_
    intro a b hbefore heq
    rw [heq] at hbefore
    exact hbefore.asymm hbefore
  -- Numbered declarations are all different, so the refused ones can be told by what they are.
  have hperm : refused.Perm
      (ds.zipIdx.filter fun a => contradicts (merge ds).constants a.1) := by
    refine (List.perm_ext_iff_of_nodup hnodup (hnumbers.filter _)).mpr ?_
    intro a
    rw [hrefused, List.mem_filter]
    simp only [contradicts, List.any_eq_true, Bool.and_eq_true, beq_iff_eq, decide_eq_true_eq]
  have hfilter : (ds.zipIdx.filter fun a => contradicts (merge ds).constants a.1).map Prod.fst =
      ds.filter (contradicts (merge ds).constants) := by
    have hmap := List.filter_map (f := Prod.fst) (l := ds.zipIdx)
      (p := contradicts (merge ds).constants)
    rw [List.zipIdx_map_fst] at hmap
    exact hmap.symm
  have hmapped := (hperm.map Prod.fst).map Declaration.refusal
  rw [hfilter, List.map_map] at hmapped
  rw [hreports]
  exact hmapped

/-- Merges of the same declarations in another order report the same, each as often. -/
theorem diagnostics_perm {ds es : List (Declaration α)} (h : Unambiguous ds)
    (hperm : ds.Perm es) : (merge ds).diagnostics.Perm (merge es).diagnostics := by
  have hkept := constants_eq_of_mem_iff h fun _ => hperm.mem_iff
  refine (diagnostics_perm_filter ds).trans ?_
  rw [hkept]
  exact ((hperm.filter _).map _).trans (diagnostics_perm_filter es).symm

end PackageSymbols

import PackageSymbols.Classes
import PackageSymbols.Proofs.Merge.Visit
import PackageSymbols.Proofs.Sorting

/-!
# The First Declaration Wins

What a merge must be, said without sorting and without a loop. Declarations are
numbered in the order of the documents, and `VisitedBefore` compares two of them
by the name as written and then by number. The constant of a key is then that
of the least declaration of the key, and the warnings are those of all
declarations with another value than the constant of their key, in this order.

The generated name is not an injective function of the name as written, so the
least declaration need be neither the first in the documents nor the first in
the order of generated names. Declarations that are equal in every respect are
still told apart by their numbers, which is why warnings are counted over
numbered declarations: a declaration that is repeated with a wrong value is
reported each time.

All this is about declarations. Those that the three merges of symbols are given are
written out in `declarations_eq`: each symbol once, in the order of the documents,
under its own name and with its own value, and with the key that its name leads to.

## Main definitions

* `VisitedBefore`: The strict order of numbered declarations.
* `IsLeastOfKey`: The declaration that a key belongs to.
* `FirstWins`: What a merge of declarations must be.

## Theorems

* `visiting_pairwise`: Numbered declarations are visited in strict order.
* `isLeastOfKey_of_firstOfKey?`: The first of a key in the visit is the least.
* `firstWins_merge`: A merge is what it must be.
* `declarations_eq`: What the three merges of symbols are given.
* `passes_firstWins`: So is each of the three merges of symbols.
-/

namespace PackageSymbols

variable {α : Type}

/-- Whether a numbered declaration is visited before another: its name is less, or the names are
    the same and it is declared earlier. -/
def VisitedBefore (a b : Declaration α × Nat) : Prop :=
  a.1.written < b.1.written ∨ a.1.written = b.1.written ∧ a.2 < b.2

/-- Whether a numbered declaration is the least of its key. -/
def IsLeastOfKey (ds : List (Declaration α)) (a : Declaration α × Nat) : Prop :=
  a ∈ ds.zipIdx ∧ ∀ b ∈ ds.zipIdx, b.1.key = a.1.key → b = a ∨ VisitedBefore a b

/-- What a merge of declarations, given in the order of the documents, must be. -/
structure FirstWins (ds : List (Declaration α)) (m : Merged α) : Prop where
  /-- No name comes twice, and names are told in their order. -/
  increasing : (m.constants.map (·.name)).Pairwise (· < ·)
  /-- The names are the keys of the declarations. -/
  names : ∀ key, key ∈ m.constants.map (·.name) ↔ key ∈ ds.map (·.key)
  /-- Each constant is that of the least declaration of its key. -/
  least : ∀ c ∈ m.constants, ∃ a, IsLeastOfKey ds a ∧
    c = { name := a.1.key, written := a.1.written, value := a.1.value }
  /-- Exactly the declarations that disagree with the constant of their key are reported, each
      under its own name at its own document, in the order of the visit. -/
  reports : ∃ refused : List (Declaration α × Nat), refused.Pairwise VisitedBefore ∧
    (∀ a, a ∈ refused ↔
      a ∈ ds.zipIdx ∧ ∃ c ∈ m.constants, c.name = a.1.key ∧ c.value ≠ a.1.value) ∧
    m.diagnostics = refused.map fun a =>
      { problem := .conflictingSymbol a.1.written
        location := { path := some a.1.path, position := none } }
  /-- All reports are warnings under the code of clashes. -/
  warnings : ∀ d ∈ m.diagnostics,
    d.problem.severity = .warning ∧ d.problem.code = "CVSSG004"

theorem VisitedBefore.asymm {a b : Declaration α × Nat} (h : VisitedBefore a b) :
    ¬ VisitedBefore b a := by
  intro hback
  rcases h with hlt | ⟨heq, hlt⟩
  · rcases hback with hgt | ⟨hname, _⟩
    · exact String.lt_asymm hlt hgt
    · rw [hname] at hlt
      exact String.lt_irrefl _ hlt
  · rcases hback with hgt | ⟨_, hgt⟩
    · rw [heq] at hgt
      exact String.lt_irrefl _ hgt
    · omega

theorem precedes_trans (a b c : Declaration α) (hab : a.precedes b = true)
    (hbc : b.precedes c = true) : a.precedes c = true :=
  decide_eq_true (String.le_trans (of_decide_eq_true hab) (of_decide_eq_true hbc))

theorem precedes_total (a b : Declaration α) : a.precedes b = true ∨ b.precedes a = true := by
  rcases String.le_total a.written b.written with h | h
  · exact Or.inl (decide_eq_true h)
  · exact Or.inr (decide_eq_true h)

/-- Numbered declarations in the order of the visit. -/
def visiting (ds : List (Declaration α)) : List (Declaration α × Nat) :=
  sortBy (fun a b => a.1.precedes b.1) ds.zipIdx

theorem map_fst_visiting (ds : List (Declaration α)) :
    (visiting ds).map Prod.fst = sortBy Declaration.precedes ds := by
  rw [visiting, map_sortBy, List.zipIdx_map_fst]

theorem pairwise_zipIdx_lt (ds : List (Declaration α)) :
    ds.zipIdx.Pairwise fun a b => a.2 < b.2 := by
  -- The numbers alone are a range, which is increasing.
  have hrange : (List.range' 0 ds.length).Pairwise (· < ·) := List.pairwise_lt_range'
  rw [← List.zipIdx_map_snd 0 ds, List.pairwise_map] at hrange
  exact hrange

/-- Numbered declarations are visited in strict order. -/
theorem visiting_pairwise (ds : List (Declaration α)) : (visiting ds).Pairwise VisitedBefore := by
  have hstable := pairwise_sortBy_of_pairwise
    (fun a b c => precedes_trans a.1 b.1 c.1) (fun a b => precedes_total a.1 b.1)
    (pairwise_zipIdx_lt ds)
  refine hstable.imp (fun {a b} h => ?_)
  have hle : a.1.written ≤ b.1.written := of_decide_eq_true h.1
  -- Where the names do not decide, stability leaves the numbers in their order.
  by_cases hge : b.1.written ≤ a.1.written
  · exact Or.inr ⟨String.le_antisymm hle hge, h.2 (decide_eq_true hge)⟩
  · exact Or.inl (String.not_le.mp hge)

/-- The first of a key in the visit is the least. -/
theorem isLeastOfKey_of_firstOfKey? {ds : List (Declaration α)} {key : String}
    {k : Declaration α} (h : firstOfKey? ((visiting ds).map Prod.fst) key = some k) :
    ∃ a, IsLeastOfKey ds a ∧ a.1 = k := by
  have hkey := key_of_firstOfKey? h
  rw [firstOfKey?, List.find?_map, Option.map_eq_some_iff] at h
  rcases h with ⟨a, ha, hak⟩
  rcases List.find?_eq_some_iff_append.mp ha with ⟨_, before, behind, hsplit, hbefore⟩
  -- To visit is to go through the same declarations in another order.
  have hmem : ∀ b, b ∈ ds.zipIdx ↔ b ∈ before ++ a :: behind := by
    intro b
    rw [← hsplit, visiting, mem_sortBy]
  refine ⟨a, ⟨(hmem a).mpr (List.mem_append_right _ List.mem_cons_self), ?_⟩, hak⟩
  intro b hb hbkey
  have hpair := visiting_pairwise ds
  rw [hsplit, List.pairwise_append, List.pairwise_cons] at hpair
  rcases List.mem_append.mp ((hmem b).mp hb) with hb | hb
  · -- Nothing visited before the first of a key has this key.
    have hno := hbefore b hb
    simp only [Function.comp_apply, Bool.not_eq_true', beq_eq_false_iff_ne, ne_eq] at hno
    rw [hak, hkey] at hbkey
    exact absurd hbkey hno
  · rcases List.mem_cons.mp hb with rfl | hb
    · exact Or.inl rfl
    · exact Or.inr (hpair.2.1.1 b hb)

section Assembly

variable [DecidableEq α]

theorem disagrees_eq_true {ds : List (Declaration α)} {d : Declaration α} :
    disagrees ds d = true ↔ ∃ k, firstOfKey? ds d.key = some k ∧ k.value ≠ d.value := by
  rw [disagrees]
  cases hk : firstOfKey? ds d.key with
  | none => simp only [Option.any_none, Bool.false_eq_true, reduceCtorEq, false_and, exists_false]
  | some k => simp only [Option.any_some, decide_eq_true_eq, Option.some.injEq, exists_eq_left']

/-- The constants of a selection, in the order of their names. -/
def constantsOf (s : Selection α) : List (Constant α) :=
  sortBy Constant.precedes (s.kept.map Declaration.constant)

omit [DecidableEq α] in
theorem mem_constantsOf {s : Selection α} {c : Constant α} :
    c ∈ constantsOf s ↔ ∃ k ∈ s.kept, k.constant = c := by
  rw [constantsOf, mem_sortBy, List.mem_map]

theorem pairwise_constantsOf {s : Selection α} {ds : List (Declaration α)}
    (h : s.Reflects ds) : ((constantsOf s).map (·.name)).Pairwise (· < ·) := by
  -- The names are the keys of what was kept.
  have hkeys : ((s.kept.map Declaration.constant).map (·.name)).Nodup := by
    rw [List.map_map]
    exact h.nodup
  exact List.pairwise_map.mpr (increasing_sortBy hkeys)

/-- The constant of a key has another value exactly when the first of the key has. -/
theorem disagrees_iff_constantsOf {s : Selection α} {ds : List (Declaration α)}
    (h : s.Reflects ds) (d : Declaration α) :
    disagrees ds d = true ↔ ∃ c ∈ constantsOf s, c.name = d.key ∧ c.value ≠ d.value := by
  rw [disagrees_eq_true]
  constructor
  · intro hd
    rcases hd with ⟨k, hk, hvalue⟩
    exact ⟨k.constant, mem_constantsOf.mpr ⟨k, h.mem_kept hk, rfl⟩, key_of_firstOfKey? hk, hvalue⟩
  · intro hd
    rcases hd with ⟨c, hc, hname, hvalue⟩
    rcases mem_constantsOf.mp hc with ⟨k, hk, rfl⟩
    refine ⟨k, ?_, hvalue⟩
    rw [← hname]
    exact h.first_of_mem hk

/-- A merge keeps the least declaration of each key and reports those that disagree with it. -/
theorem firstWins_merge (ds : List (Declaration α)) : FirstWins ds (merge ds) := by
  -- The loop does not see the numbers, so what it leaves is told of the numbered visit.
  have hs := Selection.reflects_visitAll (sortBy Declaration.precedes ds)
  rw [← map_fst_visiting] at hs
  have hconstants : (merge ds).constants =
      constantsOf (Selection.empty.visitAll ((visiting ds).map Prod.fst)) := by
    rw [map_fst_visiting]
    rfl
  have hdiagnostics : (merge ds).diagnostics =
      (Selection.empty.visitAll ((visiting ds).map Prod.fst)).refused.map Declaration.refusal := by
    rw [map_fst_visiting]
    rfl
  refine ⟨?_, fun key => ?_, fun c hc => ?_, ?_, fun d hd => ?_⟩
  · rw [hconstants]
    exact pairwise_constantsOf hs
  · rw [hconstants, List.mem_map, List.mem_map]
    constructor
    · rintro ⟨c, hc, rfl⟩
      rcases mem_constantsOf.mp hc with ⟨k, hk, rfl⟩
      rcases isLeastOfKey_of_firstOfKey? (hs.first_of_mem hk) with ⟨a, ha, rfl⟩
      exact ⟨a.1, List.fst_mem_of_mem_zipIdx ha.1, rfl⟩
    · rintro ⟨d, hd, rfl⟩
      have hvisited : d ∈ (visiting ds).map Prod.fst := by
        rw [map_fst_visiting, mem_sortBy]
        exact hd
      rcases firstOfKey?_isSome hvisited with ⟨k, hk⟩
      exact ⟨k.constant, mem_constantsOf.mpr ⟨k, hs.mem_kept hk, rfl⟩, key_of_firstOfKey? hk⟩
  · rw [hconstants] at hc
    rcases mem_constantsOf.mp hc with ⟨k, hk, rfl⟩
    rcases isLeastOfKey_of_firstOfKey? (hs.first_of_mem hk) with ⟨a, ha, rfl⟩
    exact ⟨a, ha, rfl⟩
  · refine ⟨(visiting ds).filter fun a => disagrees ((visiting ds).map Prod.fst) a.1,
      (visiting_pairwise ds).filter _, fun a => ?_, ?_⟩
    · rw [List.mem_filter, disagrees_iff_constantsOf hs, hconstants, visiting, mem_sortBy]
    · rw [hdiagnostics, hs.refused, List.filter_map, List.map_map]
      rfl
  · rw [hdiagnostics] at hd
    rcases List.mem_map.mp hd with ⟨_, _, rfl⟩
    exact ⟨rfl, rfl⟩

end Assembly

/-- What the three merges of symbols are given. A GUID goes by the identifier of its name without
    the word in front, and an identifier by that of its name, be it merged with those of all GUIDs
    of all tables or with those under some symbols only. -/
theorem declarations_eq (tables : List LocatedTable) (guids : List LocatedGuid) :
    (tables.flatMap fun t => t.table.guids.map (declarationOfGuid t.path)) =
      (tables.flatMap fun t => t.table.guids.map fun guid =>
        { key := Identifier.ofName (Identifier.stripMarker guid.name), written := guid.name
          value := guid.value, path := t.path }) ∧
    (tables.flatMap fun t => t.table.ids.map (declarationOfId t.path)) =
      (tables.flatMap fun t => t.table.guids.flatMap fun guid => guid.ids.map fun id =>
        { key := Identifier.ofName id.name, written := id.name
          value := id.value, path := t.path }) ∧
    (guids.flatMap fun g => g.2.ids.map (declarationOfId g.1)) =
      (guids.flatMap fun g => g.2.ids.map fun id =>
        { key := Identifier.ofName id.name, written := id.name
          value := id.value, path := g.1 }) := by
  refine ⟨rfl, ?_, rfl⟩
  -- The identifiers of a table are those of its GUIDs, one GUID after the other.
  simp only [CommandTable.ids, List.map_flatMap]
  rfl

end PackageSymbols

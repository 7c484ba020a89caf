import Mathlib.Data.List.Forall2

/-!
# Steps Until the First Failure

A reader takes a step that may fail for one thing after another, and the first
failure is its answer. What comes of that is told by the single steps: all of
them give something, and what they give is the result in order, or one of them
is the first to fail, and the error is that one.

A reader that goes through its input by levels does the same for a row of things
that it never forms. If the result, seen as a row, is what comes of the steps in
a row, the order of the failures is that of the row.

## Main definitions

* `FailsFirst`: The error of the first step that fails.

## Theorems

* `mapM_eq_ok_iff`, `mapM_eq_error_iff`, `mapM_eq_some_iff`: What comes of steps
  in a row.
* `mapM_mapError`: Errors that change with what is read from.
* `mapM_flatMap`: Rows that are gone through one after another are one row.
* `exists_eq_ok_iff_of_map`, `eq_error_iff_of_map`: What comes of a reader that
  goes through a row.
-/

namespace PackageSymbols

/-- Whether an error is that of the first of some things for which a step fails. -/
def FailsFirst {α β ε : Type} (f : α → Except ε β) (as : List α) (error : ε) : Prop :=
  ∃ before bad behind, as = before ++ bad :: behind ∧ (∀ a ∈ before, ∃ b, f a = .ok b) ∧
    f bad = .error error

section Rows

variable {α β ε : Type} {f : α → Except ε β} {as : List α}

theorem failsFirst_cons_iff {a : α} {error : ε} :
    FailsFirst f (a :: as) error ↔
      f a = .error error ∨ (∃ b, f a = .ok b) ∧ FailsFirst f as error := by
  constructor
  · rintro ⟨before, bad, behind, hsplit, hbefore, hbad⟩
    rcases List.cons_eq_append_iff.mp hsplit with ⟨rfl, hfront⟩ | ⟨more, rfl, rfl⟩
    · cases hfront
      exact Or.inl hbad
    · rw [List.forall_mem_cons] at hbefore
      exact Or.inr ⟨hbefore.1, more, bad, behind, rfl, hbefore.2, hbad⟩
  · rintro (hbad | ⟨hfirst, before, bad, behind, rfl, hbefore, hbad⟩)
    · exact ⟨[], a, as, rfl, List.forall_mem_nil _, hbad⟩
    · exact ⟨a :: before, bad, behind, rfl, List.forall_mem_cons.mpr ⟨hfirst, hbefore⟩, hbad⟩

theorem forall_exists_of_forall₂ {bs : List β} (h : List.Forall₂ (fun a b => f a = .ok b) as bs) :
    ∀ a ∈ as, ∃ b, f a = .ok b := by
  induction h with
  | nil => exact List.forall_mem_nil _
  | cons hfirst _ ih => exact List.forall_mem_cons.mpr ⟨⟨_, hfirst⟩, ih⟩

/-- All steps give something, and what they give is the result. -/
theorem mapM_eq_ok_iff {bs : List β} :
    as.mapM f = .ok bs ↔ List.Forall₂ (fun a b => f a = .ok b) as bs := by
  induction as generalizing bs with
  | nil =>
      rw [List.mapM_nil]
      constructor
      · rintro ⟨⟩
        exact .nil
      · rintro ⟨⟩
        rfl
  | cons a as ih =>
      rw [List.mapM_cons]
      -- If the first step fails the others are not taken, and no row can be related to it.
      cases hfirst : f a with
      | error error =>
          constructor
          · rintro ⟨⟩
          · rintro (_ | ⟨hok, _⟩)
            rw [hfirst] at hok
            cases hok
      | ok b =>
          constructor
          · intro h
            cases hrest : as.mapM f with
            | error error =>
                rw [hrest] at h
                cases h
            | ok rest =>
                rw [hrest] at h
                cases h
                exact .cons hfirst (ih.mp hrest)
          · rintro (_ | ⟨hok, hrest⟩)
            rw [hfirst] at hok
            cases hok
            rw [ih.mpr hrest]
            rfl

/-- The error is that of the first step that fails. -/
theorem mapM_eq_error_iff {error : ε} : as.mapM f = .error error ↔ FailsFirst f as error := by
  induction as with
  | nil =>
      constructor
      · rintro ⟨⟩
      · rintro ⟨before, bad, behind, hsplit, _⟩
        exact absurd hsplit.symm (List.append_ne_nil_of_right_ne_nil _ (List.cons_ne_nil _ _))
  | cons a as ih =>
      rw [List.mapM_cons, failsFirst_cons_iff, ← ih]
      cases f a with
      | error other =>
          simp only [bind, Except.bind, Except.error.injEq, reduceCtorEq, exists_false, false_and,
            or_false]
      | ok b =>
          have hfirst : ∃ c, (.ok b : Except ε β) = .ok c := ⟨b, rfl⟩
          simp only [hfirst, reduceCtorEq, true_and, false_or]
          cases as.mapM f with
          | error other => rfl
          | ok bs => simp only [bind, Except.bind, pure, Except.pure, reduceCtorEq]

/-- Errors that change with what is read from change for a row as for the things in it. -/
theorem mapM_mapError {change : α → α} {note : ε → ε}
    (h : ∀ a, f (change a) = (f a).mapError note) (as : List α) :
    (as.map change).mapM f = (as.mapM f).mapError note := by
  induction as with
  | nil => rfl
  | cons a as ih =>
      rw [List.map_cons, List.mapM_cons, List.mapM_cons, h, ih]
      cases f a with
      | error error => rfl
      | ok b =>
          cases as.mapM f with
          | error error => rfl
          | ok bs => rfl

/-- Rows that are gone through one after another are one row. -/
theorem mapM_flatMap {γ δ : Type} {read : γ → Except ε δ} {rows : α → List γ} {view : β → List δ}
    (h : ∀ a, (f a).map view = (rows a).mapM read) (as : List α) :
    (as.mapM f).map (fun bs => bs.flatMap view) = (as.flatMap rows).mapM read := by
  induction as with
  | nil => rfl
  | cons a as ih =>
      -- Both sides stop at the first row if it fails, and with the same error.
      rw [List.flatMap_cons, List.mapM_append, ← h a, ← ih, List.mapM_cons]
      cases f a with
      | error error => rfl
      | ok b =>
          cases as.mapM f with
          | error error => rfl
          | ok bs => rfl

section Readers

variable {γ : Type} {view : γ → List β} {outcome : Except ε γ}
  (h : outcome.map view = as.mapM f)

include h

/-- A reader that goes through a row gives something that shows what the steps give. -/
theorem exists_eq_ok_iff_of_map {bs : List β} :
    (∃ c, outcome = .ok c ∧ view c = bs) ↔ List.Forall₂ (fun a b => f a = .ok b) as bs := by
  rw [← mapM_eq_ok_iff, ← h]
  cases outcome with
  | error error => simp only [Except.map, reduceCtorEq, false_and, exists_false]
  | ok c => simp only [Except.map, Except.ok.injEq, exists_eq_left']

/-- A reader that goes through a row fails with the error of the first step that fails. -/
theorem eq_error_iff_of_map {error : ε} : outcome = .error error ↔ FailsFirst f as error := by
  rw [← mapM_eq_error_iff, ← h]
  cases outcome with
  | error other => rw [Except.map, Except.error.injEq, Except.error.injEq]
  | ok c => simp only [Except.map, reduceCtorEq]

/-- A reader that goes through a row gives something if no step fails. -/
theorem exists_ok_iff_of_map : (∃ c, outcome = .ok c) ↔ ∀ a ∈ as, ∃ b, f a = .ok b := by
  constructor
  · rintro ⟨c, hc⟩
    exact forall_exists_of_forall₂ ((exists_eq_ok_iff_of_map h).mp ⟨c, hc, rfl⟩)
  · intro hall
    cases houtcome : outcome with
    | ok c => exact ⟨c, rfl⟩
    | error error =>
        rcases (eq_error_iff_of_map h).mp houtcome with ⟨before, bad, behind, rfl, _, hbad⟩
        rcases hall bad (List.mem_append_right before List.mem_cons_self) with ⟨b, hb⟩
        rw [hbad] at hb
        cases hb

end Readers

end Rows

/-- All steps give something, where a step gives something or nothing. -/
theorem mapM_eq_some_iff {α β : Type} {f : α → Option β} {as : List α} {bs : List β} :
    as.mapM f = some bs ↔ List.Forall₂ (fun a b => f a = some b) as bs := by
  induction as generalizing bs with
  | nil =>
      rw [List.mapM_nil]
      constructor
      · rintro ⟨⟩
        exact .nil
      · rintro ⟨⟩
        rfl
  | cons a as ih =>
      simp only [List.mapM_cons, bind, Option.bind_eq_some_iff, pure, Option.some_inj]
      constructor
      · rintro ⟨b, hfirst, rest, hrest, rfl⟩
        exact .cons hfirst (ih.mp hrest)
      · rintro (_ | ⟨hfirst, hrest⟩)
        exact ⟨_, hfirst, _, ih.mpr hrest, rfl⟩

end PackageSymbols

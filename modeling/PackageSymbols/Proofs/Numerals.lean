import Mathlib.Data.Nat.Digits.Lemmas
import Mathlib.Tactic.Ring
import PackageSymbols.Proofs.Literals

/-!
# Numerals

What a run of digits says is told here without reading it: every character is the
digit of some value below the base, in either case, and the number is the one
with these values in positional notation. Any number of zeros may stand in
front, so a number has many numerals.

The reader of digits finds exactly these numbers, however long the run is. It is
the reason why a literal can be specified by the numbers in it and not by the
way that they are read.

## Main definitions

* `Text.IsDigitOf`: The characters that stand for the value of a digit.
* `Text.IsNumeral`: A run of digits tells a number in a base.

## Theorems

* `Text.digit?_eq_some_iff`: The value of a character as a digit.
* `Text.ofDigits?_eq_some_iff`: The reader of digits reads numerals.
* `Text.IsNumeral.lt_pow`: A numeral bounds its number.
-/

namespace PackageSymbols

/-- What stands in a row that is related to another is related to something there. -/
theorem exists_of_mem_forall₂ {α β : Type} {R : α → β → Prop} {as : List α} {bs : List β}
    (h : List.Forall₂ R as bs) {b : β} (hb : b ∈ bs) : ∃ a ∈ as, R a b := by
  induction h with
  | nil => exact absurd hb List.not_mem_nil
  | @cons a first as bs hfirst _ ih =>
      rcases List.mem_cons.mp hb with rfl | hb
      · exact ⟨a, List.mem_cons_self, hfirst⟩
      · rcases ih hb with ⟨other, hother, hrest⟩
        exact ⟨other, List.mem_cons_of_mem a hother, hrest⟩

namespace Text

/-- Whether a character stands for the value of a digit, in either case. -/
def IsDigitOf (d : Nat) (c : Char) : Prop :=
  c = lowerDigit d ∨ c = upperDigit d

/-- Whether a run of digits, of which there is at least one, tells a number in a base. -/
def IsNumeral (base n : Nat) (cs : List Char) : Prop :=
  cs ≠ [] ∧ ∃ digits : List Nat, (∀ d ∈ digits, d < base) ∧
    List.Forall₂ IsDigitOf digits cs ∧ Nat.ofDigits base digits.reverse = n

section Digits

/-- A character in a run of sixteen code points or less is found by its distance from the first. -/
theorem eq_ofNat_of_le {first last c : Char} (h : first ≤ c ∧ c ≤ last) :
    c.toNat - first.toNat ≤ last.toNat - first.toNat ∧
      c = Char.ofNat (first.toNat + (c.toNat - first.toNat)) := by
  have hfirst : first.toNat ≤ c.toNat := h.1
  have hlast : c.toNat ≤ last.toNat := h.2
  refine ⟨Nat.sub_le_sub_right hlast _, ?_⟩
  rw [Nat.add_sub_cancel' hfirst, Char.ofNat_toNat]

theorem hexDigit?_eq_some {c : Char} {d : Nat} (h : hexDigit? c = some d) :
    d < 16 ∧ IsDigitOf d c := by
  -- The three runs of digits, each counted from its first character.
  have hdecimal : ∀ k ≤ 9, lowerDigit k = Char.ofNat ('0'.toNat + k) := by decide
  have hlower : ∀ k ≤ 5, lowerDigit (k + 10) = Char.ofNat ('a'.toNat + k) := by decide
  have hupper : ∀ k ≤ 5, upperDigit (k + 10) = Char.ofNat ('A'.toNat + k) := by decide
  unfold hexDigit? at h
  by_cases hc : '0' ≤ c ∧ c ≤ '9'
  · rw [if_pos hc, Option.some.injEq] at h
    rcases eq_ofNat_of_le hc with ⟨hle, heq⟩
    rw [h] at hle heq
    exact ⟨Nat.lt_of_le_of_lt hle (by decide), Or.inl (heq.trans (hdecimal d hle).symm)⟩
  rw [if_neg hc] at h
  by_cases hc : 'a' ≤ c ∧ c ≤ 'f'
  · rw [if_pos hc, Option.some.injEq] at h
    rcases eq_ofNat_of_le hc with ⟨hle, heq⟩
    rw [← h]
    exact ⟨Nat.add_lt_add_right (Nat.lt_of_le_of_lt hle (by decide)) 10,
      Or.inl (heq.trans (hlower _ hle).symm)⟩
  rw [if_neg hc] at h
  by_cases hc : 'A' ≤ c ∧ c ≤ 'F'
  · rw [if_pos hc, Option.some.injEq] at h
    rcases eq_ofNat_of_le hc with ⟨hle, heq⟩
    rw [← h]
    exact ⟨Nat.add_lt_add_right (Nat.lt_of_le_of_lt hle (by decide)) 10,
      Or.inr (heq.trans (hupper _ hle).symm)⟩
  · rw [if_neg hc] at h
    exact absurd h (by simp only [reduceCtorEq, not_false_eq_true])

/-- A character is a digit of a base if it stands for a value below the base. -/
theorem digit?_eq_some_iff {base : Nat} (hbase : base ≤ 16) {c : Char} {d : Nat} :
    digit? base c = some d ↔ d < base ∧ IsDigitOf d c := by
  rw [digit?, Option.filter_eq_some_iff, decide_eq_true_eq]
  constructor
  · rintro ⟨h, hd⟩
    exact ⟨hd, (hexDigit?_eq_some h).2⟩
  · rintro ⟨hd, h⟩
    have hlower : ∀ k < 16, hexDigit? (lowerDigit k) = some k := by decide
    have hupper : ∀ k < 16, hexDigit? (upperDigit k) = some k := by decide
    refine ⟨?_, hd⟩
    rcases h with rfl | rfl
    · exact hlower d (Nat.lt_of_lt_of_le hd hbase)
    · exact hupper d (Nat.lt_of_lt_of_le hd hbase)

theorem isDigit_iff {base : Nat} (hbase : base ≤ 16) {c : Char} :
    isDigit base c = true ↔ ∃ d < base, IsDigitOf d c := by
  rw [isDigit, Option.isSome_iff_exists]
  exact exists_congr fun _ => digit?_eq_some_iff hbase

end Digits

section Numbers

variable {base : Nat} (hbase : base ≤ 16)

include hbase

/-- Digits that are read onto a number go behind it. -/
theorem readDigits?_eq_some_iff {v n : Nat} {cs : List Char} :
    readDigits? base v cs = some n ↔ ∃ digits : List Nat, (∀ d ∈ digits, d < base) ∧
      List.Forall₂ IsDigitOf digits cs ∧
      v * base ^ cs.length + Nat.ofDigits base digits.reverse = n := by
  induction cs generalizing v with
  | nil =>
      rw [readDigits?, Option.some.injEq]
      constructor
      · rintro rfl
        refine ⟨[], fun d hd => absurd hd List.not_mem_nil, .nil, ?_⟩
        rw [List.length_nil, Nat.pow_zero, Nat.mul_one, List.reverse_nil, Nat.ofDigits_nil,
          Nat.add_zero]
      · rintro ⟨digits, _, hdigits, hn⟩
        cases hdigits
        rw [← hn, List.length_nil, Nat.pow_zero, Nat.mul_one, List.reverse_nil, Nat.ofDigits_nil,
          Nat.add_zero]
  | cons c cs ih =>
      -- The first digit is worth as much as the number of digits behind it says.
      have hvalue : ∀ (d : Nat) (digits : List Nat), digits.length = cs.length →
          v * base ^ (c :: cs).length + Nat.ofDigits base (d :: digits).reverse =
            (v * base + d) * base ^ cs.length + Nat.ofDigits base digits.reverse := by
        intro d digits hlength
        rw [List.reverse_cons, Nat.ofDigits_append, Nat.ofDigits_singleton, List.length_reverse,
          hlength, List.length_cons, Nat.pow_succ]
        ring
      rw [readDigits?]
      constructor
      · intro h
        cases hd : digit? base c with
        | none =>
            rw [hd] at h
            exact absurd h (by simp only [reduceCtorEq, not_false_eq_true])
        | some d =>
            rw [hd] at h
            rcases ih.mp h with ⟨digits, hlt, hdigits, hn⟩
            have hfirst := (digit?_eq_some_iff hbase).mp hd
            refine ⟨d :: digits, List.forall_mem_cons.mpr ⟨hfirst.1, hlt⟩,
              .cons hfirst.2 hdigits, ?_⟩
            rw [hvalue d digits hdigits.length_eq, hn]
      · rintro ⟨digits, hlt, hdigits, hn⟩
        cases hdigits with
        | @cons d _ digits _ hfirst hrest =>
            rw [(digit?_eq_some_iff hbase).mpr ⟨hlt d List.mem_cons_self, hfirst⟩]
            refine ih.mpr ⟨digits, fun e he => hlt e (List.mem_cons_of_mem d he), hrest, ?_⟩
            rw [← hvalue d digits hrest.length_eq, hn]

/-- The reader of digits reads numerals. -/
theorem ofDigits?_eq_some_iff {n : Nat} {cs : List Char} :
    ofDigits? base cs = some n ↔ IsNumeral base n cs := by
  rw [ofDigits?, IsNumeral]
  by_cases hcs : cs = []
  · rw [hcs]
    simp
  · rw [if_neg (by rw [List.isEmpty_iff]; exact hcs), readDigits?_eq_some_iff hbase]
    simp only [hcs, Nat.zero_mul, Nat.zero_add, ne_eq, not_false_eq_true, true_and]

theorem IsNumeral.isDigit {n : Nat} {cs : List Char} (h : IsNumeral base n cs) :
    ∀ c ∈ cs, isDigit base c = true := by
  rcases h with ⟨_, digits, hlt, hdigits, _⟩
  intro c hc
  rcases exists_of_mem_forall₂ hdigits hc with ⟨d, hd, hdigit⟩
  exact (isDigit_iff hbase).mpr ⟨d, hlt d hd, hdigit⟩

omit hbase

/-- A numeral bounds the number that it tells. -/
theorem IsNumeral.lt_pow {n : Nat} {cs : List Char} (h : IsNumeral base n cs) (htwo : 1 < base) :
    n < base ^ cs.length := by
  rcases h with ⟨_, digits, hlt, hdigits, rfl⟩
  rw [← hdigits.length_eq, ← List.length_reverse]
  exact Nat.ofDigits_lt_base_pow_length htwo fun d hd => hlt d (List.mem_reverse.mp hd)

end Numbers

end Text

end PackageSymbols

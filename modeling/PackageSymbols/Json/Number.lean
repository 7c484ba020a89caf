import PackageSymbols.Text.Digits

/-!
# Numbers in JSON

No option is a number, so the value of a number in JSON text is never needed.
What has to be known is where it ends, and, where a number stands in place of
something else, whether it could be held as a binary number of double precision
at all: one that is too large for that is at fault as a number, before it is at
fault for not being a text.

A number is taken as a significand and a power of ten. The significand has the
digits that fit 64 bits; further digits before the point only count for the
power, further digits behind it for nothing. Both parts are rounded to double
precision and multiplied, so the product exceeds the range exactly when it is at
least halfway from the largest number of double precision to the next power of
two.

## Main definitions

* `Number`, `scanNumber`: The parts of a number and the text behind it.
* `Number.scaled`: Its significand and power of ten.
* `Number.exceedsDouble`: Whether it is too large for double precision.
-/

namespace PackageSymbols

namespace Json

open Text

/-- The digits of a number as written. -/
structure Number where
  /-- Digits before the point. -/
  whole : List Char
  /-- Digits behind the point. -/
  fraction : List Char
  /-- Whether the power of ten is negative. -/
  negativePower : Bool
  /-- Digits of the power of ten. -/
  power : List Char
deriving DecidableEq, Repr

/-- Whether a character is a decimal digit. -/
def isDecimal (c : Char) : Bool :=
  isDigit 10 c

/-- Reads digits, of which there must be one at least. -/
def scanDigits (cs : List Char) : Option (List Char × List Char) :=
  match cs.takeWhile isDecimal with
  | [] => none
  | d :: ds => some (d :: ds, cs.dropWhile isDecimal)

/-- Reads the digits before the point. Only a single zero may begin with zero. -/
def scanWhole (cs : List Char) : Option (List Char × List Char) :=
  match scanDigits cs with
  | some ('0' :: _ :: _, _) => none
  | found => found

/-- Reads a point and the digits behind it, if there is a point. -/
def scanFraction : List Char → Option (List Char × List Char)
  | '.' :: cs => scanDigits cs
  | cs => some ([], cs)

/-- Whether a power of ten begins with a minus sign, and the text without its sign. -/
def scanSign : List Char → Bool × List Char
  | '+' :: cs => (false, cs)
  | '-' :: cs => (true, cs)
  | cs => (false, cs)

/-- Reads the power of ten, if there is one. -/
def scanPower : List Char → Option (Bool × List Char × List Char)
  | [] => some (false, [], [])
  | c :: cs =>
      if c = 'e' ∨ c = 'E' then
        let (negative, cs) := scanSign cs
        (scanDigits cs).map fun (digits, rest) => (negative, digits, rest)
      else some (false, [], c :: cs)

/-- Reads a number and tells the text behind it. -/
def scanNumber (cs : List Char) : Option (Number × List Char) := do
  let cs := match cs with
    | '-' :: rest => rest
    | _ => cs
  let (whole, cs) ← scanWhole cs
  let (fraction, cs) ← scanFraction cs
  let (negativePower, power, cs) ← scanPower cs
  return ({ whole, fraction, negativePower, power }, cs)

/-- Takes digits into a significand as long as it stays below 2 ^ 64. The answer holds the
    significand, how many digits were taken, and how many were not. -/
def takeSignificand : (significand taken : Nat) → List Char → Nat × Nat × Nat
  | significand, taken, [] => (significand, taken, 0)
  | significand, taken, c :: cs =>
      let next := significand * 10 + (digit? 10 c).getD 0
      if next < UInt64.size then takeSignificand next (taken + 1) cs
      else (significand, taken, cs.length + 1)

/-- The significand of a number and the power of ten it is multiplied with. -/
def Number.scaled (n : Number) : Nat × Int :=
  let (whole, _, left) := takeSignificand 0 0 n.whole
  let (significand, taken, _) := takeSignificand whole 0 n.fraction
  let power : Int := (ofDigits? 10 n.power).getD 0
  (significand, left - taken + if n.negativePower then -power else power)

/-- The nearest natural number of double precision; halfway the even one. -/
def nearestDouble (n : Nat) : Nat :=
  let drop := n.log2 - 52
  let unit := 1 <<< drop
  let low := n / unit
  let rest := n % unit
  if 2 * rest < unit ∨ 2 * rest = unit ∧ low % 2 = 0 then low * unit else (low + 1) * unit

/-- Whether a number is too large for double precision. -/
def Number.exceedsDouble (n : Number) : Bool :=
  let (significand, power) := n.scaled
  if significand = 0 ∨ power < 0 then false
  else if power > 308 then true
  else nearestDouble significand * nearestDouble (Nat.pow 10 power.toNat) ≥ 1 <<< 1024 - 1 <<< 970

theorem length_lt_of_scanDigits {cs digits rest : List Char}
    (h : scanDigits cs = some (digits, rest)) : rest.length < cs.length := by
  unfold scanDigits at h
  split at h
  · exact absurd h (by simp only [reduceCtorEq, not_false_eq_true])
  · next d ds hd =>
      have hlen := congrArg List.length (List.takeWhile_append_dropWhile (p := isDecimal) (l := cs))
      simp only [Option.some.injEq, Prod.mk.injEq] at h
      rw [List.length_append, hd, h.2, List.length_cons] at hlen
      omega

theorem length_lt_of_scanWhole {cs digits rest : List Char}
    (h : scanWhole cs = some (digits, rest)) : rest.length < cs.length := by
  unfold scanWhole at h
  split at h
  · exact absurd h (by simp only [reduceCtorEq, not_false_eq_true])
  · exact length_lt_of_scanDigits h

theorem length_le_of_scanFraction {cs digits rest : List Char}
    (h : scanFraction cs = some (digits, rest)) : rest.length ≤ cs.length := by
  unfold scanFraction at h
  split at h
  · have := length_lt_of_scanDigits h
    simp only [List.length_cons]
    omega
  · simp only [Option.some.injEq, Prod.mk.injEq] at h
    exact Nat.le_of_eq (congrArg List.length h.2.symm)

theorem length_scanSign_le (cs : List Char) : (scanSign cs).2.length ≤ cs.length := by
  unfold scanSign
  split <;> simp only [List.length_cons, Nat.le_succ, Nat.le_refl]

theorem length_le_of_scanPower {cs digits rest : List Char} {negative : Bool}
    (h : scanPower cs = some (negative, digits, rest)) : rest.length ≤ cs.length := by
  unfold scanPower at h
  split at h
  · simp only [Option.some.injEq, Prod.mk.injEq] at h
    exact Nat.le_of_eq (congrArg List.length h.2.2.symm)
  · next c cs =>
      split at h
      · have hs := length_scanSign_le cs
        simp only [Option.map_eq_some_iff, Prod.mk.injEq] at h
        obtain ⟨⟨digits', rest'⟩, hd, -, -, rfl⟩ := h
        have := length_lt_of_scanDigits hd
        simp only [List.length_cons]
        omega
      · simp only [Option.some.injEq, Prod.mk.injEq] at h
        exact Nat.le_of_eq (congrArg List.length h.2.2.symm)

/-- Reading a number uses up text. -/
theorem length_lt_of_scanNumber {cs rest : List Char} {n : Number}
    (h : scanNumber cs = some (n, rest)) : rest.length < cs.length := by
  have hsign : (match cs with | '-' :: rest => rest | _ => cs).length ≤ cs.length := by
    split <;> simp only [List.length_cons, Nat.le_succ, Nat.le_refl]
  unfold scanNumber at h
  simp only [Option.bind_eq_bind, Option.bind_eq_some_iff, Option.pure_def, Option.some.injEq,
    Prod.mk.injEq, Prod.exists] at h
  obtain ⟨_, r₁, h₁, _, r₂, h₂, _, _, r₃, h₃, -, rfl⟩ := h
  have l₁ := length_lt_of_scanWhole h₁
  have l₂ := length_le_of_scanFraction h₂
  have l₃ := length_le_of_scanPower h₃
  omega

end Json

end PackageSymbols

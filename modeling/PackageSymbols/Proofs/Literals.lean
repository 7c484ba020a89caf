import Mathlib.Algebra.Ring.Nat
import PackageSymbols.CommandId
import PackageSymbols.Guid
import PackageSymbols.Proofs.Scanning

/-!
# Literals That Are Written

GUIDs and identifiers are written in one form each, and both forms are literals:
reading what was written gives the value back. What carries both is that a
number written in hexadecimal digits, with leading zeros or not, is read back
modulo the power of sixteen that the digits can tell.

The canonical text of a GUID is one run of 32 digits, cut into groups and
dashed. `hexDigits_add` cuts a run of digits into two, so each group is the
digits of a number of its own and the fields are put together again from the
most significant down.

## Main definitions

* `Text.IsTrimmed`: A text neither begins nor ends with a blank.
* `Guid.ofHyphenated?`: The reader of the canonical text of a GUID.

## Theorems

* `ofDigits?_hexDigits`: Digits that are written are read back.
* `hexDigits_add`: A run of digits is two runs.
* `Guid.ofHyphenated?_hyphenatedChars`: The canonical text of a GUID is read back.
* `Guid.parse_braced`: In braces it is a literal of the GUID.
* `CommandId.ofHex?_hexChars`: The hexadecimal text of an identifier is its literal.
* `CommandId.parse_hex`: So says the reader of identifier literals.
-/

namespace PackageSymbols

namespace Text

theorem digit?_lowerDigit : ∀ d < 16, digit? 16 (lowerDigit d) = some d := by
  decide

theorem digit?_upperDigit : ∀ d < 16, digit? 16 (upperDigit d) = some d := by
  decide

theorem isBlank_lowerDigit : ∀ d < 16, isBlank (lowerDigit d) = false := by
  decide

theorem isBlank_upperDigit : ∀ d < 16, isBlank (upperDigit d) = false := by
  decide

theorem mem_hexDigits {digit : Nat → Char} {width n : Nat} {c : Char}
    (h : c ∈ hexDigits digit width n) : ∃ d < 16, c = digit d := by
  induction width generalizing n with
  | zero => exact absurd h List.not_mem_nil
  | succ width ih =>
      rw [hexDigits, List.mem_append, List.mem_singleton] at h
      rcases h with h | h
      · exact ih h
      · exact ⟨n % 16, Nat.mod_lt n (by omega), h⟩

theorem readDigits?_append (base : Nat) (xs ys : List Char) (v : Nat) :
    readDigits? base v (xs ++ ys) = (readDigits? base v xs).bind fun w =>
      readDigits? base w ys := by
  induction xs generalizing v with
  | nil => rfl
  | cons x xs ih =>
      rw [List.cons_append, readDigits?, readDigits?]
      cases digit? base x with
      | none => rfl
      | some d => exact ih _

theorem readDigits?_hexDigits {digit : Nat → Char}
    (hdigit : ∀ d < 16, digit? 16 (digit d) = some d) (width n v : Nat) :
    readDigits? 16 v (hexDigits digit width n) = some (v * 16 ^ width + n % 16 ^ width) := by
  induction width generalizing n with
  | zero => rw [hexDigits, readDigits?, Nat.pow_zero, Nat.mod_one, Nat.mul_one, Nat.add_zero]
  | succ width ih =>
      -- The last digit is the remainder by the base, and the others are those of the quotient.
      have hmod : n % 16 ^ (width + 1) = n % 16 + 16 * (n / 16 % 16 ^ width) := by
        rw [Nat.pow_succ', Nat.mod_mul]
      rw [hexDigits, readDigits?_append, ih, Option.bind_some, readDigits?,
        hdigit _ (Nat.mod_lt n (by omega))]
      simp only [readDigits?, Option.some.injEq]
      rw [hmod, Nat.pow_succ, ← Nat.mul_assoc]
      omega

/-- Digits that are written are read back, as far as they tell the number. -/
theorem ofDigits?_hexDigits {digit : Nat → Char}
    (hdigit : ∀ d < 16, digit? 16 (digit d) = some d) {width : Nat} (hwidth : 0 < width)
    (n : Nat) : ofDigits? 16 (hexDigits digit width n) = some (n % 16 ^ width) := by
  -- A text of no digits is no number, so there has to be one at least.
  have hne : (hexDigits digit width n).isEmpty = false := by
    rw [List.isEmpty_eq_false_iff]
    intro h
    have hlength := length_hexDigits digit width n
    rw [h, List.length_nil] at hlength
    omega
  rw [ofDigits?, hne, if_neg Bool.false_ne_true, readDigits?_hexDigits hdigit, Nat.zero_mul,
    Nat.zero_add]

/-- A run of digits is the digits of the high part in front of those of the low part. -/
theorem hexDigits_add (digit : Nat → Char) (high low n : Nat) :
    hexDigits digit (high + low) n =
      hexDigits digit high (n / 16 ^ low) ++ hexDigits digit low n := by
  induction low generalizing n with
  | zero => rw [Nat.add_zero, Nat.pow_zero, Nat.div_one, hexDigits, List.append_nil]
  | succ low ih =>
      rw [← Nat.add_assoc, hexDigits, ih, hexDigits, List.append_assoc, Nat.div_div_eq_div_mul,
        Nat.pow_succ']

theorem lt_pow_hexLength (n : Nat) : n < 16 ^ hexLength n := by
  -- Four bits go into a digit, so the length in bits bounds the length in digits.
  have hpow : (16 : Nat) ^ hexLength n = 2 ^ (4 * hexLength n) := by
    rw [Nat.pow_mul]
  rw [hpow]
  refine Nat.lt_of_lt_of_le (Nat.lt_log2_self (n := n)) (Nat.pow_le_pow_right (by omega) ?_)
  rw [hexLength]
  omega

/-- Whether a text neither begins nor ends with a blank. -/
def IsTrimmed (cs : List Char) : Prop :=
  (∀ c ∈ cs.head?, isBlank c = false) ∧ ∀ c ∈ cs.getLast?, isBlank c = false

instance (cs : List Char) : Decidable (IsTrimmed cs) :=
  @instDecidableAnd _ _ (Option.decidableForallMem cs.head?) (Option.decidableForallMem cs.getLast?)

theorem isTrimmed_of_forall {cs : List Char} (h : ∀ c ∈ cs, isBlank c = false) : IsTrimmed cs :=
  ⟨fun c hc => h c (List.mem_of_mem_head? hc), fun c hc => h c (List.mem_of_mem_getLast? hc)⟩

theorem dropWhile_isBlank_eq_self {cs : List Char} (h : ∀ c ∈ cs.head?, isBlank c = false) :
    cs.dropWhile isBlank = cs := by
  cases cs with
  | nil => rfl
  | cons c cs => exact dropWhile_cons_of_false (h c rfl) cs

/-- Trimming leaves a trimmed text as it is. -/
theorem trimChars_eq_self {cs : List Char} (h : IsTrimmed cs) : trimChars cs = cs := by
  have hlast : ∀ c ∈ cs.reverse.head?, isBlank c = false := by
    rw [List.head?_reverse]
    exact h.2
  rw [trimChars, dropWhile_isBlank_eq_self h.1, trimEndChars, dropWhile_isBlank_eq_self hlast,
    List.reverse_reverse]

theorem trim_eq_self {s : String} (h : IsTrimmed s.toList) : trim s = s := by
  rw [trim, trimChars_eq_self h, String.ofList_toList]

end Text

namespace Guid

open Text

/-- The digits of the canonical text in their groups. -/
theorem hyphenatedChars_eq (g : Guid) :
    let n := g.bits.toNat
    g.hyphenatedChars =
      hexDigits lowerDigit 8 (n / 16 ^ 24) ++ '-' :: hexDigits lowerDigit 4 (n / 16 ^ 20) ++
        '-' :: hexDigits lowerDigit 4 (n / 16 ^ 16) ++
        '-' :: hexDigits lowerDigit 4 (n / 16 ^ 12) ++ '-' :: hexDigits lowerDigit 12 n := by
  intro n
  -- The run is cut once in front of each dash, from the left.
  have h1 : hexDigits lowerDigit 32 n = _ := hexDigits_add lowerDigit 8 24 n
  have h2 : hexDigits lowerDigit 24 n = _ := hexDigits_add lowerDigit 4 20 n
  have h3 : hexDigits lowerDigit 20 n = _ := hexDigits_add lowerDigit 4 16 n
  have h4 : hexDigits lowerDigit 16 n = _ := hexDigits_add lowerDigit 4 12 n
  have d8 : (hexDigits lowerDigit 32 n).drop 8 = hexDigits lowerDigit 24 n := by
    rw [h1, List.drop_left' (length_hexDigits _ _ _)]
  have d12 : (hexDigits lowerDigit 32 n).drop 12 = hexDigits lowerDigit 20 n := by
    rw [show 12 = 8 + 4 from rfl, ← List.drop_drop, d8, h2,
      List.drop_left' (length_hexDigits _ _ _)]
  have d16 : (hexDigits lowerDigit 32 n).drop 16 = hexDigits lowerDigit 16 n := by
    rw [show 16 = 12 + 4 from rfl, ← List.drop_drop, d12, h3,
      List.drop_left' (length_hexDigits _ _ _)]
  have d20 : (hexDigits lowerDigit 32 n).drop 20 = hexDigits lowerDigit 12 n := by
    rw [show 20 = 16 + 4 from rfl, ← List.drop_drop, d16, h4,
      List.drop_left' (length_hexDigits _ _ _)]
  rw [hyphenatedChars, d8, d12, d16, d20, h1, h2, h3, h4, List.take_left' (length_hexDigits _ _ _),
    List.take_left' (length_hexDigits _ _ _), List.take_left' (length_hexDigits _ _ _),
    List.take_left' (length_hexDigits _ _ _)]

theorem group?_append {width : Nat} {xs : List Char} (hlength : xs.length = width)
    (rest : List Char) :
    group? width (xs ++ rest) = (ofDigits? 16 xs).map fun value => (value, rest) := by
  have htake : (xs ++ rest).take width = xs := List.take_left' hlength
  have hdrop : (xs ++ rest).drop width = rest := List.drop_left' hlength
  rw [group?, htake, hdrop, if_pos hlength]

theorem group?_lowerDigits {width : Nat} (hwidth : 0 < width) (n : Nat) (rest : List Char) :
    group? width (hexDigits lowerDigit width n ++ rest) = some (n % 16 ^ width, rest) := by
  rw [group?_append (length_hexDigits _ _ _), ofDigits?_hexDigits digit?_lowerDigit hwidth]
  rfl

theorem expect?_cons (c : Char) (rest : List Char) : expect? c (c :: rest) = some rest := by
  rw [expect?, if_pos rfl]

/-- The fields of the registry form, put together. -/
theorem joinFields_groups {n : Nat} (h : n < 2 ^ 128) :
    joinFields [(32, n / 16 ^ 24 % 16 ^ 8), (16, n / 16 ^ 20 % 16 ^ 4),
      (16, n / 16 ^ 16 % 16 ^ 4), (16, n / 16 ^ 12 % 16 ^ 4), (48, n % 16 ^ 12)] = n := by
  simp only [joinFields, List.foldl_cons, List.foldl_nil]
  omega

/-- Reads the canonical text of a GUID, which has no braces. -/
def ofHyphenated? (cs : List Char) : Option Guid :=
  ofRegistry? ('\x7b' :: (cs ++ ['\x7d']))

/-- The canonical text of a GUID is read back. -/
theorem ofHyphenated?_hyphenatedChars (g : Guid) :
    ofHyphenated? g.hyphenatedChars = some g := by
  rw [hyphenatedChars_eq]
  -- Each group is read in its width and each dash is expected, so the reader never chooses.
  simp only [ofHyphenated?, ofRegistry?, List.append_assoc, List.cons_append, expect?_cons,
    Option.bind_eq_bind, Option.bind_some, group?_lowerDigits (Nat.succ_pos _),
    List.isEmpty_nil, if_true]
  rw [ofFields, joinFields_groups g.bits.isLt, ofNat, BitVec.ofNat_toNat, BitVec.setWidth_eq]

theorem toList_hyphenated (g : Guid) : g.hyphenated.toList = g.hyphenatedChars :=
  String.toList_ofList

/-- What holds of small digits and dashes holds of the canonical text. -/
theorem forall_mem_hyphenatedChars (g : Guid) {P : Char → Prop}
    (hdigit : ∀ d < 16, P (lowerDigit d)) (hdash : P '-') : ∀ c ∈ g.hyphenatedChars, P c := by
  intro c h
  have hdigits : ∀ width n, c ∈ hexDigits lowerDigit width n → P c := by
    intro width n hc
    rcases mem_hexDigits hc with ⟨d, hd, rfl⟩
    exact hdigit d hd
  have hdashes : c = '-' → P c := by
    rintro rfl
    exact hdash
  rw [hyphenatedChars_eq] at h
  simp only [List.mem_append, List.mem_cons] at h
  rcases h with (((h | h | h) | h | h) | h | h) | h | h
  all_goals first | exact hdashes h | exact hdigits _ _ h

/-- The canonical text of a GUID in braces is a literal of it. -/
theorem parse_braced (g : Guid) : parse ("\x7b" ++ g.hyphenated ++ "\x7d") = .ok g := by
  have hchars : ("\x7b" ++ g.hyphenated ++ "\x7d").toList =
      '\x7b' :: (g.hyphenatedChars ++ ['\x7d']) := by
    have hopen : "\x7b".toList = ['\x7b'] := rfl
    have hclose : "\x7d".toList = ['\x7d'] := rfl
    rw [String.toList_append, String.toList_append, toList_hyphenated, hopen, hclose,
      List.append_assoc, List.singleton_append]
  -- Digits, hyphens and braces are no blanks.
  have htrim : trimChars ('\x7b' :: (g.hyphenatedChars ++ ['\x7d'])) =
      '\x7b' :: (g.hyphenatedChars ++ ['\x7d']) := by
    refine trimChars_eq_self (isTrimmed_of_forall fun c hc => ?_)
    rw [List.mem_cons, List.mem_append, List.mem_singleton] at hc
    rcases hc with rfl | hc | rfl
    · decide
    · exact g.forall_mem_hyphenatedChars (P := (isBlank · = false)) isBlank_lowerDigit
        (by decide) c hc
    · decide
  have hread : ofRegistry? ('\x7b' :: (g.hyphenatedChars ++ ['\x7d'])) = some g :=
    ofHyphenated?_hyphenatedChars g
  simp only [parse, hchars, htrim, hread, Option.orElse_eq_orElse, Option.orElse_some]

end Guid

namespace CommandId

open Text

theorem toNat_lt (id : CommandId) : id.toUInt32.toNat < UInt32.size :=
  id.toUInt32.toNat_lt

/-- The hexadecimal text of an identifier is read back. -/
theorem ofHex?_hexChars (id : CommandId) : ofHex? id.hexChars = some id := by
  have hwidth : 0 < max 4 (hexLength id.toUInt32.toNat) := by omega
  -- Leading zeros only make the width larger, so the whole number is told.
  have hfits : id.toUInt32.toNat < 16 ^ max 4 (hexLength id.toUInt32.toNat) :=
    Nat.lt_of_lt_of_le (lt_pow_hexLength _) (Nat.pow_le_pow_right (by omega) (by omega))
  rw [hexChars, ofHex?, if_pos (Or.inl rfl), ofDigits?_hexDigits digit?_upperDigit hwidth,
    Nat.mod_eq_of_lt hfits]
  simp only [if_pos (toNat_lt id), UInt32.ofNat_toNat, Int32.toInt32_toUInt32]

theorem toList_hex (id : CommandId) : id.hex.toList = id.hexChars :=
  String.toList_ofList

/-- What holds of capital digits and of the mark in front holds of the hexadecimal text. -/
theorem forall_mem_hexChars (id : CommandId) {P : Char → Prop} (hdigit : ∀ d < 16, P (upperDigit d))
    (hmark : P 'x') : ∀ c ∈ id.hexChars, P c := by
  intro c h
  rw [hexChars, List.mem_cons, List.mem_cons] at h
  rcases h with rfl | rfl | h
  · exact hdigit 0 (by decide)
  · exact hmark
  · rcases mem_hexDigits h with ⟨d, hd, rfl⟩
    exact hdigit d hd

/-- The hexadecimal text of an identifier is a literal of it. -/
theorem parse_hex (id : CommandId) : parse id.hex = .ok id := by
  have htrim : trimChars id.hex.toList = id.hexChars := by
    rw [toList_hex]
    exact trimChars_eq_self (isTrimmed_of_forall
      (id.forall_mem_hexChars (P := (isBlank · = false)) isBlank_upperDigit (by decide)))
  simp only [parse, htrim, ofHex?_hexChars, Option.orElse_eq_orElse, Option.orElse_some]

end CommandId

end PackageSymbols

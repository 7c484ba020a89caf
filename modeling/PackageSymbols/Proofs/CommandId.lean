import PackageSymbols.Proofs.Spacing

/-!
# Identifier Literals

A literal of an identifier is a numeral with blanks around it. Behind a mark the
digits are hexadecimal and tell the bits of a word, so that any number below 2 ^ 32
is allowed, and the upper half of them are the negative values in two's complement.
Without a mark they are decimal and tell the value, and only the lower half of the
words can be written. In both cases as many zeros as one likes may stand in front,
so the length of a literal bounds nothing.

The reader tries the first way and then the second. No text is a literal in both
ways, as a mark is no decimal digit; and a marked numeral that is too large is no
decimal numeral either, so a failure of the first way is final where it should be.

## Main definitions

* `CommandId.signedValue`: The value of a word in two's complement.
* `CommandId.IsHexForm`, `CommandId.IsDecimalForm`: The two forms of a literal.
* `CommandId.IsLiteral`: A text is a literal of an identifier.

## Theorems

* `CommandId.toInt_ofBits`: A word has the value of its bits.
* `CommandId.ofHex?_eq_some_iff`, `CommandId.ofDecimal?_eq_some_iff`: The readers of
  the two forms.
* `CommandId.parse_eq_ok_iff_isLiteral`: The literals are read and nothing else.
-/

namespace PackageSymbols

namespace CommandId

open Text

/-- The value that a number of 32 bits has in two's complement. -/
def signedValue (n : Nat) : Int :=
  if n < 2 ^ 31 then n else n - 2 ^ 32

/-- Whether a text is an identifier in hexadecimal digits behind a mark. -/
def IsHexForm (id : CommandId) (form : List Char) : Prop :=
  ∃ x digits n, (x = 'x' ∨ x = 'X') ∧ form = '0' :: x :: digits ∧ IsNumeral 16 n digits ∧
    n < 2 ^ 32 ∧ id.toInt = signedValue n

/-- Whether a text is an identifier in decimal digits. -/
def IsDecimalForm (id : CommandId) (form : List Char) : Prop :=
  ∃ n, IsNumeral 10 n form ∧ n ≤ 2 ^ 31 - 1 ∧ id.toInt = n

/-- Whether a text is a literal of an identifier: one of its forms, with blanks around it. -/
def IsLiteral (id : CommandId) (text : String) : Prop :=
  ∃ form, (id.IsHexForm form ∨ id.IsDecimalForm form) ∧ IsSpaced [form] text.toList

section Forms

variable {id : CommandId} {cs : List Char}

/-- A word has the value of its bits. -/
theorem toInt_ofBits {n : Nat} (h : n < 2 ^ 32) :
    (UInt32.ofNat n).toInt32.toInt = signedValue n := by
  rw [Int32.toInt, UInt32.toBitVec_toInt32, BitVec.toInt_eq_toNat_cond, UInt32.toNat_toBitVec,
    UInt32.toNat_ofNat_of_lt' h, signedValue]
  by_cases hlow : n < 2 ^ 31
  · rw [if_pos hlow, if_pos (by omega)]
  · rw [if_neg hlow, if_neg (by omega)]
    rfl

/-- The reader of the hexadecimal form accepts this form and nothing else. -/
theorem ofHex?_eq_some_iff : ofHex? cs = some id ↔ id.IsHexForm cs := by
  constructor
  · intro h
    rw [ofHex?.eq_def] at h
    split at h
    · next x digits =>
        by_cases hx : x = 'x' ∨ x = 'X'
        · rw [if_pos hx] at h
          cases hn : ofDigits? 16 digits with
          | none =>
              rw [hn] at h
              exact absurd h (by simp only [reduceCtorEq, not_false_eq_true])
          | some n =>
              rw [hn] at h
              by_cases hlt : n < UInt32.size
              · simp only [if_pos hlt, Option.some.injEq] at h
                exact ⟨x, digits, n, hx, rfl, (ofDigits?_eq_some_iff (le_refl 16)).mp hn, hlt,
                  h ▸ toInt_ofBits hlt⟩
              · simp only [if_neg hlt, reduceCtorEq] at h
        · rw [if_neg hx] at h
          exact absurd h (by simp only [reduceCtorEq, not_false_eq_true])
    · exact absurd h (by simp only [reduceCtorEq, not_false_eq_true])
  · rintro ⟨x, digits, n, hx, rfl, hnumeral, hlt, hid⟩
    have hvalue : (UInt32.ofNat n).toInt32 = id :=
      Int32.toInt_inj.mp ((toInt_ofBits hlt).trans hid.symm)
    rw [ofHex?, if_pos hx, (ofDigits?_eq_some_iff (le_refl 16)).mpr hnumeral]
    exact (if_pos hlt).trans (congrArg some hvalue)

/-- The reader of the decimal form accepts this form and nothing else. -/
theorem ofDecimal?_eq_some_iff : ofDecimal? cs = some id ↔ id.IsDecimalForm cs := by
  have hten : 10 ≤ 16 := by decide
  constructor
  · intro h
    rw [ofDecimal?] at h
    cases hn : ofDigits? 10 cs with
    | none =>
        rw [hn] at h
        exact absurd h (by simp only [reduceCtorEq, not_false_eq_true])
    | some n =>
        rw [hn] at h
        by_cases hlt : n < 0x80000000
        · simp only [if_pos hlt, Option.some.injEq] at h
          exact ⟨n, (ofDigits?_eq_some_iff hten).mp hn, Nat.le_pred_of_lt hlt,
            h ▸ Int32.toInt_ofNat_of_lt hlt⟩
        · simp only [if_neg hlt, reduceCtorEq] at h
  · rintro ⟨n, hnumeral, hle, hid⟩
    have hlt : n < 2 ^ 31 := by omega
    have hvalue : Int32.ofNat n = id :=
      Int32.toInt_inj.mp ((Int32.toInt_ofNat_of_lt hlt).trans hid.symm)
    rw [ofDecimal?, (ofDigits?_eq_some_iff hten).mpr hnumeral]
    exact (if_pos hlt).trans (congrArg some hvalue)

/-- A marked numeral is no decimal numeral. -/
theorem IsDecimalForm.ofHex?_eq_none (h : id.IsDecimalForm cs) : ofHex? cs = none := by
  rcases h with ⟨n, hnumeral, _⟩
  rw [Option.eq_none_iff_forall_ne_some]
  intro other hother
  rcases ofHex?_eq_some_iff.mp hother with ⟨x, digits, _, hx, rfl, _⟩
  have hdigit := hnumeral.isDigit (by decide) x (by simp)
  rcases hx with rfl | rfl
  · exact absurd hdigit (by decide)
  · exact absurd hdigit (by decide)

/-- Neither form has a blank in it. -/
theorem not_isBlank_of_form (h : id.IsHexForm cs ∨ id.IsDecimalForm cs) :
    cs ≠ [] ∧ ∀ c ∈ cs, isBlank c = false := by
  rcases h with ⟨x, digits, _, hx, rfl, hnumeral, _⟩ | ⟨_, hnumeral, _⟩
  · have hmark : isBlank x = false := by
      rcases hx with rfl | rfl
      · decide
      · decide
    refine ⟨List.cons_ne_nil _ _, ?_⟩
    rw [List.forall_mem_cons, List.forall_mem_cons]
    exact ⟨by decide, hmark, hnumeral.not_isBlank (le_refl 16)⟩
  · exact ⟨hnumeral.1, hnumeral.not_isBlank (by decide)⟩

/-- A text is a literal if trimming leaves one of the forms of it. -/
theorem isLiteral_iff {text : String} : id.IsLiteral text ↔
    id.IsHexForm (trimChars text.toList) ∨ id.IsDecimalForm (trimChars text.toList) := by
  constructor
  · rintro ⟨form, hform, hspaced⟩
    rcases not_isBlank_of_form hform with ⟨hne, hblank⟩
    rw [hspaced.trimChars hne (isTrimmed_of_forall hblank)]
    exact hform
  · exact fun hform => ⟨_, hform, isSpaced_trimChars _⟩

end Forms

/-- What the two readers make of a text, one after the other. -/
theorem orElse_eq_some_iff {id : CommandId} {cs : List Char} :
    (ofHex? cs <|> ofDecimal? cs) = some id ↔ id.IsHexForm cs ∨ id.IsDecimalForm cs := by
  constructor
  · intro h
    cases hhex : ofHex? cs with
    | some other =>
        rw [hhex] at h
        rw [Option.some.inj h] at hhex
        exact Or.inl (ofHex?_eq_some_iff.mp hhex)
    | none =>
        rw [hhex] at h
        exact Or.inr (ofDecimal?_eq_some_iff.mp h)
  · rintro (hhex | hdecimal)
    · rw [ofHex?_eq_some_iff.mpr hhex]
      rfl
    · rw [hdecimal.ofHex?_eq_none, ofDecimal?_eq_some_iff.mpr hdecimal]
      rfl

/-- The literals of an identifier are read as this identifier, and from every other text comes an
    error with the text as it is. The text that is written for an identifier is a literal of it. -/
theorem parse_eq_ok_iff_isLiteral :
    (∀ (text : String) (id : CommandId), parse text = .ok id ↔ id.IsLiteral text) ∧
    (∀ text : String, (∀ id : CommandId, ¬id.IsLiteral text) → parse text = .error ⟨text⟩) ∧
    ∀ id : CommandId, parse id.hex = .ok id := by
  have hparse : ∀ (text : String) (id : CommandId), parse text = .ok id ↔
      (ofHex? (trimChars text.toList) <|> ofDecimal? (trimChars text.toList)) = some id := by
    intro text id
    simp only [parse]
    split
    · next other hread => rw [hread, Except.ok.injEq, Option.some.injEq]
    · next hread => simp only [hread, reduceCtorEq]
  refine ⟨fun text id => ?_, fun text hnone => ?_, parse_hex⟩
  · rw [hparse, orElse_eq_some_iff, isLiteral_iff]
  · simp only [parse]
    split
    · next id hread =>
        exact absurd (isLiteral_iff.mpr (orElse_eq_some_iff.mp hread)) (hnone id)
    · rfl

end CommandId

end PackageSymbols

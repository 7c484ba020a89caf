import PackageSymbols.Json.Number
import PackageSymbols.Json.Text

/-!
# Passing over JSON Values

A record may have members that nobody asked for. Their values are passed over,
which takes no more than to know where they end, but they have to be well formed
all the same. The lists and records that are open around a place are kept in a
list, so values may be nested to any depth.

## Main definitions

* `skipBlanks`, `skipWord`, `skipText`: Passing over the smallest parts.
* `skipScalar`: Passing over a value that holds no other.
* `skipValue`: Passing over any value.

## Theorems

* `length_lt_of_skipScalar`: A scalar uses up text.
-/

namespace PackageSymbols

namespace Json

/-- The four characters that may stand between the parts of JSON text. -/
def isBlank (c : Char) : Bool :=
  c == ' ' || c == '\n' || c == '\t' || c == '\r'

/-- The text behind leading blanks. -/
def skipBlanks (cs : List Char) : List Char :=
  cs.dropWhile isBlank

/-- The text behind a word. -/
def skipWord : (word : List Char) → List Char → Option (List Char)
  | [], cs => some cs
  | _ :: _, [] => none
  | w :: word, c :: cs => if c = w then skipWord word cs else none

/-- The text behind a text in quotes, given behind its opening quote. -/
def skipText (cs : List Char) : Option (List Char) :=
  (scanParts cs).map (·.2)

/-- The text behind a value that holds no other. -/
def skipScalar : List Char → Option (List Char)
  | [] => none
  | c :: cs =>
      if c = 'n' then skipWord ['u', 'l', 'l'] cs
      else if c = 't' then skipWord ['r', 'u', 'e'] cs
      else if c = 'f' then skipWord ['a', 'l', 's', 'e'] cs
      else if c = '"' then skipText cs
      else (scanNumber (c :: cs)).map (·.2)

/-- The text behind the name of a member and its colon. -/
def skipName (cs : List Char) : Option (List Char) :=
  match skipBlanks cs with
  | '"' :: cs =>
      match skipText cs with
      | some cs =>
          match skipBlanks cs with
          | ':' :: cs => some cs
          | _ => none
      | none => none
  | _ => none

/-- What a value can stand in. -/
inductive Enclosure where
  | list
  | record
deriving DecidableEq, Repr

theorem length_skipBlanks_le (cs : List Char) : (skipBlanks cs).length ≤ cs.length :=
  (List.dropWhile_sublist isBlank).length_le

theorem length_lt_of_skipBlanks {c : Char} {cs rest : List Char}
    (h : skipBlanks cs = c :: rest) : rest.length < cs.length := by
  have := length_skipBlanks_le cs
  rw [h, List.length_cons] at this
  omega

theorem length_le_of_skipWord {word cs rest : List Char} (h : skipWord word cs = some rest) :
    rest.length ≤ cs.length := by
  fun_induction skipWord word cs with
  | case1 cs => exact Nat.le_of_eq (congrArg List.length (Option.some.inj h).symm)
  | case2 => exact absurd h (by simp only [reduceCtorEq, not_false_eq_true])
  | case3 _ _ _ ih =>
      have := ih h
      simp only [List.length_cons]
      omega
  | case4 => exact absurd h (by simp only [reduceCtorEq, not_false_eq_true])

theorem length_lt_of_skipText {cs rest : List Char} (h : skipText cs = some rest) :
    rest.length < cs.length := by
  obtain ⟨⟨parts, rest'⟩, hp, rfl⟩ := Option.map_eq_some_iff.mp h
  exact length_lt_of_scanParts hp

/-- A scalar uses up text. -/
theorem length_lt_of_skipScalar {cs rest : List Char} (h : skipScalar cs = some rest) :
    rest.length < cs.length := by
  cases cs with
  | nil => exact absurd h (by simp only [skipScalar, reduceCtorEq, not_false_eq_true])
  | cons c cs =>
      have words : ∀ word, skipWord word cs = some rest → rest.length < (c :: cs).length :=
        fun word h => Nat.lt_succ_of_le (length_le_of_skipWord h)
      rw [skipScalar] at h
      split at h
      · exact words _ h
      split at h
      · exact words _ h
      split at h
      · exact words _ h
      split at h
      · exact Nat.lt_succ_of_lt (length_lt_of_skipText h)
      · obtain ⟨⟨n, rest'⟩, hn, rfl⟩ := Option.map_eq_some_iff.mp h
        exact length_lt_of_scanNumber hn

theorem length_lt_of_skipName {cs rest : List Char} (h : skipName cs = some rest) :
    rest.length < cs.length := by
  have hcs := length_skipBlanks_le cs
  unfold skipName at h
  split at h
  · next cs₁ h₁ =>
      split at h
      · next cs₂ h₂ =>
          have l₂ := length_lt_of_skipText h₂
          have l₃ := length_skipBlanks_le cs₂
          split at h
          · next cs₃ h₃ =>
              rw [h₁, List.length_cons] at hcs
              rw [h₃, List.length_cons, Option.some.inj h] at l₃
              omega
          · exact absurd h (by simp only [reduceCtorEq, not_false_eq_true])
      · exact absurd h (by simp only [reduceCtorEq, not_false_eq_true])
  · exact absurd h (by simp only [reduceCtorEq, not_false_eq_true])

mutual

/-- The text behind a value and behind all that it stands in. -/
def skipInside (outer : List Enclosure) (cs : List Char) : Option (List Char) :=
  match _h : skipBlanks cs with
  | '[' :: rest =>
      match _h' : skipBlanks rest with
      | ']' :: after => skipBehind outer after
      | _ => skipInside (.list :: outer) rest
  | '\x7b' :: rest =>
      match _h' : skipBlanks rest with
      | '\x7d' :: after => skipBehind outer after
      | _ =>
          match _n : skipName rest with
          | some after => skipInside (.record :: outer) after
          | none => none
  | scalar =>
      match _s : skipScalar scalar with
      | some after => skipBehind outer after
      | none => none
termination_by cs.length
decreasing_by
  · exact Nat.lt_trans (length_lt_of_skipBlanks _h') (length_lt_of_skipBlanks _h)
  · exact length_lt_of_skipBlanks _h
  · exact Nat.lt_trans (length_lt_of_skipBlanks _h') (length_lt_of_skipBlanks _h)
  · exact Nat.lt_trans (length_lt_of_skipName _n) (length_lt_of_skipBlanks _h)
  · exact Nat.lt_of_lt_of_le (length_lt_of_skipScalar _s) (_h ▸ length_skipBlanks_le cs)

/-- The text behind all that a value which ends here stands in. -/
def skipBehind (outer : List Enclosure) (cs : List Char) : Option (List Char) :=
  match outer with
  | [] => some cs
  | enclosure :: outer =>
      match _h : skipBlanks cs, enclosure with
      | ',' :: rest, .list => skipInside (.list :: outer) rest
      | ',' :: rest, .record =>
          match _n : skipName rest with
          | some after => skipInside (.record :: outer) after
          | none => none
      | ']' :: rest, .list => skipBehind outer rest
      | '\x7d' :: rest, .record => skipBehind outer rest
      | _, _ => none
termination_by cs.length
decreasing_by
  · exact length_lt_of_skipBlanks _h
  · exact Nat.lt_trans (length_lt_of_skipName _n) (length_lt_of_skipBlanks _h)
  · exact length_lt_of_skipBlanks _h
  · exact length_lt_of_skipBlanks _h

end

mutual

theorem length_lt_of_skipInside {outer : List Enclosure} {cs rest : List Char}
    (h : skipInside outer cs = some rest) : rest.length < cs.length := by
  -- Every branch passes a bracket, a brace or a scalar before it goes on.
  rw [skipInside] at h
  split at h
  · next inner hcs =>
      have l := length_lt_of_skipBlanks hcs
      split at h
      · next after hinner =>
          have l' := length_lt_of_skipBlanks hinner
          have := length_le_of_skipBehind h
          omega
      · have := length_lt_of_skipInside h
        omega
  · next inner hcs =>
      have l := length_lt_of_skipBlanks hcs
      split at h
      · next after hinner =>
          have l' := length_lt_of_skipBlanks hinner
          have := length_le_of_skipBehind h
          omega
      · split at h
        · next after hname =>
            have l' := length_lt_of_skipName hname
            have := length_lt_of_skipInside h
            omega
        · exact absurd h (by simp only [reduceCtorEq, not_false_eq_true])
  · split at h
    · next after hscalar =>
        have l := length_skipBlanks_le cs
        have l' := length_lt_of_skipScalar hscalar
        have := length_le_of_skipBehind h
        omega
    · exact absurd h (by simp only [reduceCtorEq, not_false_eq_true])
termination_by cs.length

theorem length_le_of_skipBehind {outer : List Enclosure} {cs rest : List Char}
    (h : skipBehind outer cs = some rest) : rest.length ≤ cs.length := by
  -- Outside of all enclosures nothing is passed, so the bound is not strict.
  rw [skipBehind.eq_def] at h
  split at h
  · exact Nat.le_of_eq (congrArg List.length (Option.some.inj h).symm)
  · split at h
    · next inner hcs =>
        have l := length_lt_of_skipBlanks hcs
        have := length_lt_of_skipInside h
        omega
    · next inner hcs =>
        have l := length_lt_of_skipBlanks hcs
        split at h
        · next after hname =>
            have l' := length_lt_of_skipName hname
            have := length_lt_of_skipInside h
            omega
        · exact absurd h (by simp only [reduceCtorEq, not_false_eq_true])
    · next inner hcs =>
        have l := length_lt_of_skipBlanks hcs
        have := length_le_of_skipBehind h
        omega
    · next inner hcs =>
        have l := length_lt_of_skipBlanks hcs
        have := length_le_of_skipBehind h
        omega
    · exact absurd h (by simp only [reduceCtorEq, not_false_eq_true])
termination_by cs.length

end

/-- The text behind a value. -/
def skipValue (cs : List Char) : Option (List Char) :=
  skipInside [] cs

end Json

end PackageSymbols

import PackageSymbols.Text.Digits

/-!
# Texts in JSON

A text in JSON stands in double quotes, with a backslash in front of what cannot
stand for itself. Reading goes in two steps. The first finds the end of the text
and understands each escape by itself; the second puts pairs of surrogates
together, which `\u` escapes need for characters beyond sixteen bits. A text
that nobody looks at is only read by the first step, so a surrogate without its
partner is at fault only in a text that is used.

## Main definitions

* `Part`: A character, or a sixteen-bit unit given by number.
* `scanParts`: The parts of a text and what follows its closing quote.
* `charactersOf`: The characters that parts stand for.
-/

namespace PackageSymbols

namespace Json

open Text

/-- A part of a text. -/
inductive Part where
  /-- A character, as it is or by a short escape. -/
  | character (c : Char)
  /-- A unit of sixteen bits, by its number. -/
  | unit (n : Nat)
deriving DecidableEq, Repr

/-- The character that a letter stands for behind a backslash. -/
def shortEscape? (c : Char) : Option Char :=
  if c = '"' ∨ c = '\\' ∨ c = '/' then some c
  else if c = 'b' then some '\x08'
  else if c = 'f' then some '\x0c'
  else if c = 'n' then some '\n'
  else if c = 'r' then some '\r'
  else if c = 't' then some '\t'
  else none

/-- The parts of a text, given behind its opening quote, and what follows the closing one.
    Control characters must be escaped. -/
def scanParts : List Char → Option (List Part × List Char)
  | [] => none
  | '"' :: rest => some ([], rest)
  | '\\' :: 'u' :: a :: b :: c :: d :: rest =>
      match ofDigits? 16 [a, b, c, d], scanParts rest with
      | some n, some (parts, rest) => some (.unit n :: parts, rest)
      | _, _ => none
  | '\\' :: e :: rest =>
      match shortEscape? e, scanParts rest with
      | some c, some (parts, rest) => some (.character c :: parts, rest)
      | _, _ => none
  | c :: rest =>
      if c = '\\' ∨ c.toNat < 0x20 then none
      else
        match scanParts rest with
        | some (parts, rest) => some (.character c :: parts, rest)
        | none => none

/-- Whether a unit begins a pair. -/
def isLeading (n : Nat) : Bool :=
  0xD800 ≤ n && n < 0xDC00

/-- Whether a unit ends a pair. -/
def isTrailing (n : Nat) : Bool :=
  0xDC00 ≤ n && n < 0xE000

/-- The characters that parts stand for; none if a surrogate lacks its partner. -/
def charactersOf : List Part → Option (List Char)
  | [] => some []
  | .character c :: rest => (charactersOf rest).map (c :: ·)
  | .unit n :: .unit m :: rest =>
      if isLeading n then
        if isTrailing m then
          (charactersOf rest).map
            (Char.ofNat (0x10000 + (n - 0xD800) * 0x400 + (m - 0xDC00)) :: ·)
        else none
      else if isTrailing n then none
      else (charactersOf (.unit m :: rest)).map (Char.ofNat n :: ·)
  | .unit n :: rest =>
      if isLeading n || isTrailing n then none
      else (charactersOf rest).map (Char.ofNat n :: ·)

/-- Reading a text uses up characters. -/
theorem length_lt_of_scanParts {cs rest : List Char} {parts : List Part}
    (h : scanParts cs = some (parts, rest)) : rest.length < cs.length := by
  -- A case that goes on has passed a code, an escape or a character.
  fun_induction scanParts cs generalizing parts rest with
  | case1 => exact absurd h (by simp only [reduceCtorEq, not_false_eq_true])
  | case2 rest' =>
      simp only [Option.some.injEq, Prod.mk.injEq] at h
      rw [h.2, List.length_cons]
      omega
  | case3 a b c d rest' n parts' rest'' hs hn ih =>
      simp only [Option.some.injEq, Prod.mk.injEq] at h
      have := ih hs
      rw [← h.2]
      simp only [List.length_cons]
      omega
  | case4 => exact absurd h (by simp only [reduceCtorEq, not_false_eq_true])
  | case5 e rest' _ c parts' rest'' hs hc ih =>
      simp only [Option.some.injEq, Prod.mk.injEq] at h
      have := ih hs
      rw [← h.2]
      simp only [List.length_cons]
      omega
  | case6 => exact absurd h (by simp only [reduceCtorEq, not_false_eq_true])
  | case7 => exact absurd h (by simp only [reduceCtorEq, not_false_eq_true])
  | case8 c rest' _ _ _ _ parts' rest'' hs ih =>
      simp only [Option.some.injEq, Prod.mk.injEq] at h
      have := ih hs
      rw [← h.2]
      simp only [List.length_cons]
      omega
  | case9 => exact absurd h (by simp only [reduceCtorEq, not_false_eq_true])

end Json

end PackageSymbols

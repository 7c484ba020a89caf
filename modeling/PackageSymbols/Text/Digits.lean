/-!
# Numbers in Positional Notation

Reading and writing natural numbers as digits, for the bases up to sixteen that
the literals of command tables use. Reading takes letters of either case and
any number of leading zeros; writing fixes the number of digits, because a GUID
has fields of a set width and an identifier a least width.

## Main definitions

* `digit?`: The value of a character as a digit of a base.
* `ofDigits?`: The number a non-empty run of digits denotes.
* `hexDigits`: The last hexadecimal digits of a number, a set count of them.
* `hexLength`: How many hexadecimal digits a number needs.

## Theorems

* `length_hexDigits`: A number is written with the count of digits asked for.
-/

namespace PackageSymbols

namespace Text

/-- The value of a hexadecimal digit in either case. -/
def hexDigit? (c : Char) : Option Nat :=
  if '0' ≤ c ∧ c ≤ '9' then some (c.toNat - '0'.toNat)
  else if 'a' ≤ c ∧ c ≤ 'f' then some (c.toNat - 'a'.toNat + 10)
  else if 'A' ≤ c ∧ c ≤ 'F' then some (c.toNat - 'A'.toNat + 10)
  else none

/-- The value of a character as a digit of a base of at most sixteen. -/
def digit? (base : Nat) (c : Char) : Option Nat :=
  (hexDigit? c).filter (· < base)

/-- Whether the character is a digit of the base. -/
def isDigit (base : Nat) (c : Char) : Bool :=
  (digit? base c).isSome

/-- Reads digits onto the number read so far. -/
def readDigits? (base : Nat) : Nat → List Char → Option Nat
  | value, [] => some value
  | value, c :: cs =>
      match digit? base c with
      | some d => readDigits? base (value * base + d) cs
      | none => none

/-- The number that a non-empty run of digits denotes. -/
def ofDigits? (base : Nat) (cs : List Char) : Option Nat :=
  if cs.isEmpty then none else readDigits? base 0 cs

/-- The digit characters of hexadecimal text in small letters. -/
def lowerDigit (d : Nat) : Char :=
  ['0', '1', '2', '3', '4', '5', '6', '7', '8', '9', 'a', 'b', 'c', 'd', 'e', 'f'].getD d '0'

/-- The digit characters of hexadecimal text in capital letters. -/
def upperDigit (d : Nat) : Char :=
  ['0', '1', '2', '3', '4', '5', '6', '7', '8', '9', 'A', 'B', 'C', 'D', 'E', 'F'].getD d '0'

/-- The last `width` hexadecimal digits of a number, written by `digit`. -/
def hexDigits (digit : Nat → Char) : (width : Nat) → Nat → List Char
  | 0, _ => []
  | width + 1, n => hexDigits digit width (n / 16) ++ [digit (n % 16)]

/-- A number is written with the count of digits asked for. -/
@[simp] theorem length_hexDigits (digit : Nat → Char) (width n : Nat) :
    (hexDigits digit width n).length = width := by
  induction width generalizing n with
  | zero => rfl
  | succ width ih => simp only [hexDigits, List.length_append, ih, List.length_singleton]

/-- How many hexadecimal digits a number needs; zero needs one. -/
def hexLength (n : Nat) : Nat :=
  n.log2 / 4 + 1

end Text

end PackageSymbols

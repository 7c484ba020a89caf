import PackageSymbols.Markup.Fault
import PackageSymbols.Text.Digits

/-!
# References to Characters

Text and attribute values write some characters as references: an ampersand, a
name or a number, and a semicolon. Five names are known. A number is given in
decimal digits after `#` or in hexadecimal digits after `#x`.

A number is judged digit by digit, so that of a wrong digit and a number that
grows too large the one that comes first is reported.

## Main definitions

* `named?`: The character of a known name.
* `numbered`: The character of a number.
* `resolve`: Text with its references replaced.
-/

namespace PackageSymbols

namespace Markup

open Text

/-- The character that a name stands for. -/
def named? (name : List Char) : Option Char :=
  if name = ['l', 't'] then some '<'
  else if name = ['g', 't'] then some '>'
  else if name = ['a', 'm', 'p'] then some '&'
  else if name = ['a', 'p', 'o', 's'] then some '\''
  else if name = ['q', 'u', 'o', 't'] then some '"'
  else none

/-- Reads digits onto a number that has to stay below 2 ^ 32. -/
def readWord (base : Nat) : Nat → List Char → Except NumberCause Nat
  | n, [] => .ok n
  | n, c :: cs =>
      match digit? base c with
      | none => .error .digit
      | some d =>
          if n * base + d < UInt32.size then readWord base (n * base + d) cs else .error .tooLarge

/-- The number that a text without a sign denotes in a base. -/
def wordOfDigits (base : Nat) : List Char → Except NumberCause Nat
  | [] => .error .empty
  | c :: cs => if c = '+' ∨ c = '-' then .error .sign else readWord base 0 (c :: cs)

/-- The character of a number other than zero. -/
def characterOfNumber (n : Nat) : Except NumberCause Char :=
  if n = 0 then .error .zero
  else if n.isValidChar then .ok (Char.ofNat n)
  else .error (.noCharacter n)

/-- The character of a number, written after the `#` of a reference. -/
def numbered : List Char → Except NumberCause Char
  | 'x' :: digits => wordOfDigits 16 digits >>= characterOfNumber
  | digits => wordOfDigits 10 digits >>= characterOfNumber

/-- The character that the text between `&` and `;` stands for, the text being at the given
    offset. -/
def referenced (offset : Nat) (name : List Char) : Except Cause Char :=
  match name with
  | '#' :: number =>
      match numbered number with
      | .ok c => .ok c
      | .error cause => .error (.referenceNumber cause)
  | _ =>
      match named? name with
      | some c => .ok c
      | none => .error
          (.referenceUnknown offset (offset + utf8Length name) (String.ofList name))

/-- Whether a character ends the search for the `;` of a reference. -/
def endsReference (c : Char) : Bool :=
  c == '&' || c == ';'

/-- Replaces the references of a text whose first character is at the given offset. -/
def resolveFrom (offset : Nat) (cs : List Char) : Except Cause (List Char) :=
  match cs with
  | [] => .ok []
  | c :: rest =>
      if c = '&' then
        let name := rest.takeWhile fun d => !endsReference d
        match _h : rest.dropWhile fun d => !endsReference d with
        | ';' :: after => do
            let c ← referenced (offset + 1) name
            let text ← resolveFrom (offset + utf8Length name + 2) after
            return c :: text
        | _ => .error (.referenceUnclosed offset (offset + utf8Length (c :: rest)))
      else do
        let text ← resolveFrom (offset + c.utf8Size) rest
        return c :: text
termination_by cs.length
decreasing_by
  · have := (List.dropWhile_sublist (l := rest) fun d => !endsReference d).length_le
    rw [_h] at this
    simp only [List.length_cons] at this ⊢
    omega
  · simp only [List.length_cons]
    omega

/-- A text with its references replaced. -/
def resolve (cs : List Char) : Except Cause String := do
  let text ← resolveFrom 0 cs
  return String.ofList text

end Markup

end PackageSymbols

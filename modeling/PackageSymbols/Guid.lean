import PackageSymbols.Text.Blank
import PackageSymbols.Text.Digits

/-!
# GUIDs

A GUID is a number of 128 bits. Command tables write it in one of two ways:

* the registry form, `{6d484634-e53d-4a2c-adcb-55145c9362c8}`;
* the structure form, `{0x6d484634, 0xe53d, 0x4a2c, {0xad, 0xcb, 0x55, 0x14,
  0x5c, 0x93, 0x62, 0xc8}}`, whose fields may leave out leading zeros.

Blanks around the literal are ignored, and so is every blank inside the
structure form: it is read from the text with all blanks taken out. Generated
code writes the digits of the registry form in small letters and without braces.

Both forms are lists of fields from the most significant one down, so both are
put together by `ofFields`.

## Main definitions

* `Guid`: A number of 128 bits.
* `Guid.hyphenated`: The canonical text of a GUID.
* `Guid.ofFields`: The GUID with given fields.
* `Guid.ofRegistry?`, `Guid.ofStructure?`: The readers of the two forms.
* `Guid.parse`: The reader of GUID literals.
-/

namespace PackageSymbols

/-- A number of 128 bits. -/
structure Guid where
  /-- The bits, the first field of the written form in front. -/
  bits : BitVec 128
deriving DecidableEq, Repr, Inhabited

namespace Guid

open Text

/-- The GUID whose number is given modulo 2 ^ 128. -/
def ofNat (n : Nat) : Guid :=
  ⟨BitVec.ofNat 128 n⟩

/-- The characters of the canonical text: groups of 8, 4, 4, 4 and 12 small digits. -/
def hyphenatedChars (g : Guid) : List Char :=
  let digits := hexDigits lowerDigit 32 g.bits.toNat
  digits.take 8 ++ '-' :: (digits.drop 8).take 4 ++ '-' :: (digits.drop 12).take 4 ++
    '-' :: (digits.drop 16).take 4 ++ '-' :: digits.drop 20

/-- The canonical text of a GUID. -/
def hyphenated (g : Guid) : String :=
  String.ofList g.hyphenatedChars

/-- The number whose fields, from the most significant one down, have the given widths in bits
    and values. -/
def joinFields (fields : List (Nat × Nat)) : Nat :=
  fields.foldl (fun high field => high <<< field.1 + field.2) 0

/-- The GUID with the given fields. -/
def ofFields (fields : List (Nat × Nat)) : Guid :=
  ofNat (joinFields fields)

/-- The text without a certain character in front. -/
def expect? (c : Char) : List Char → Option (List Char)
  | [] => none
  | d :: rest => if d = c then some rest else none

/-- Reads a group of exactly `width` hexadecimal digits. -/
def group? (width : Nat) (cs : List Char) : Option (Nat × List Char) :=
  let digits := cs.take width
  if digits.length = width then
    (ofDigits? 16 digits).map fun value => (value, cs.drop width)
  else none

/-- Reads the registry form. -/
def ofRegistry? (cs : List Char) : Option Guid := do
  let cs ← expect? '\x7b' cs
  let (a, cs) ← group? 8 cs
  let cs ← expect? '-' cs
  let (b, cs) ← group? 4 cs
  let cs ← expect? '-' cs
  let (c, cs) ← group? 4 cs
  let cs ← expect? '-' cs
  let (d, cs) ← group? 4 cs
  let cs ← expect? '-' cs
  let (e, cs) ← group? 12 cs
  let cs ← expect? '\x7d' cs
  if cs.isEmpty then some (ofFields [(32, a), (16, b), (16, c), (16, d), (48, e)]) else none

/-- Reads `0x` or `0X` and the longest run of hexadecimal digits after it, which must not be
    empty and not be longer than `width`. -/
def markedHex? (width : Nat) : List Char → Option (Nat × List Char)
  | '0' :: x :: rest =>
      if x = 'x' ∨ x = 'X' then
        let digits := rest.takeWhile (isDigit 16)
        if digits.length ≤ width then
          (ofDigits? 16 digits).map fun value => (value, rest.dropWhile (isDigit 16))
        else none
      else none
  | _ => none

/-- Reads fields of two digits, each after a comma. -/
def byteFields? : (count : Nat) → List Char → Option (List (Nat × Nat) × List Char)
  | 0, cs => some ([], cs)
  | count + 1, cs => do
      let cs ← expect? ',' cs
      let (value, cs) ← markedHex? 2 cs
      let (more, cs) ← byteFields? count cs
      return ((8, value) :: more, cs)

/-- Reads the structure form from a text that holds no blanks. -/
def ofCompact? (cs : List Char) : Option Guid := do
  let cs ← expect? '\x7b' cs
  let (a, cs) ← markedHex? 8 cs
  let cs ← expect? ',' cs
  let (b, cs) ← markedHex? 4 cs
  let cs ← expect? ',' cs
  let (c, cs) ← markedHex? 4 cs
  let cs ← expect? ',' cs
  let cs ← expect? '\x7b' cs
  let (first, cs) ← markedHex? 2 cs
  let (more, cs) ← byteFields? 7 cs
  let cs ← expect? '\x7d' cs
  let cs ← expect? '\x7d' cs
  if cs.isEmpty then some (ofFields ([(32, a), (16, b), (16, c), (8, first)] ++ more)) else none

/-- Reads the structure form, whose blanks mean nothing. -/
def ofStructure? (cs : List Char) : Option Guid :=
  ofCompact? (cs.filter fun c => !isBlank c)

/-- A text that is no GUID literal. -/
structure Invalid where
  /-- The text, with the blanks around it. -/
  text : String
deriving DecidableEq, Repr

/-- What is said about a text that is no GUID literal. -/
def Invalid.message (e : Invalid) : String :=
  "'" ++ e.text ++ "' is not a valid GUID"

/-- Reads a GUID literal in either form. -/
def parse (text : String) : Except Invalid Guid :=
  let cs := trimChars text.toList
  match ofRegistry? cs <|> ofStructure? cs with
  | some g => .ok g
  | none => .error ⟨text⟩

end Guid

end PackageSymbols

import PackageSymbols.Text.Blank
import PackageSymbols.Text.Digits

/-!
# Command Identifiers

A command identifier is a signed word of 32 bits. A literal in decimal digits
denotes itself and has to be at most 2 ^ 31 - 1; a literal in hexadecimal
digits gives the bits of the word, so that large ones denote negative values.
Generated code always writes the bits, and wraps a negative value into a cast,
because the hexadecimal constant alone would not fit a signed word.

## Main definitions

* `CommandId`: A signed word of 32 bits.
* `CommandId.hex`: The bits in at least four hexadecimal digits.
* `CommandId.expression`: The constant expression that denotes the value.
* `CommandId.parse`: The reader of identifier literals.
-/

namespace PackageSymbols

/-- A signed word of 32 bits. -/
abbrev CommandId := Int32

namespace CommandId

open Text

/-- The characters of `hex`. -/
def hexChars (id : CommandId) : List Char :=
  let word := id.toUInt32.toNat
  '0' :: 'x' :: hexDigits upperDigit (max 4 (hexLength word)) word

/-- The bits of the value, in at least four capital hexadecimal digits. -/
def hex (id : CommandId) : String :=
  String.ofList id.hexChars

/-- The constant expression that denotes the value in generated code. -/
def expression (id : CommandId) : String :=
  if id < 0 then "unchecked((int)" ++ id.hex ++ ")" else id.hex

/-- Reads a hexadecimal literal: the bits of the word after `0x` or `0X`. -/
def ofHex? : List Char → Option CommandId
  | '0' :: x :: digits =>
      if x = 'x' ∨ x = 'X' then
        match ofDigits? 16 digits with
        | some n => if n < UInt32.size then some (UInt32.ofNat n).toInt32 else none
        | none => none
      else none
  | _ => none

/-- Reads a decimal literal, which denotes a value that is not negative. -/
def ofDecimal? (cs : List Char) : Option CommandId :=
  match ofDigits? 10 cs with
  | some n => if n < 0x80000000 then some (Int32.ofNat n) else none
  | none => none

/-- A text that is no identifier literal. -/
structure Invalid where
  /-- The text, with the blanks around it. -/
  text : String
deriving DecidableEq, Repr

/-- What is said about a text that is no identifier literal. -/
def Invalid.message (e : Invalid) : String :=
  "'" ++ e.text ++ "' is not a valid ID"

/-- Reads an identifier literal, with blanks around it or not. -/
def parse (text : String) : Except Invalid CommandId :=
  let cs := trimChars text.toList
  match ofHex? cs <|> ofDecimal? cs with
  | some id => .ok id
  | none => .error ⟨text⟩

end CommandId

end PackageSymbols

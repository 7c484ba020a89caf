import PackageSymbols.Identifier.Letters
import PackageSymbols.Identifier.Continuations

/-!
# Identifiers and File Names

Symbols of a command table are named by hand, and such a name may hold anything.
Two kinds of names are made from it: the identifier of a generated constant and
the name of a generated file. Both are made one character at a time, by putting
an underscore in place of what is not allowed, so equal names stay equal and the
result has the shape of what was written.

A name of a GUID usually begins with the word `guid`, which the generated
identifier drops. The word is only taken for a marker in front of an ASCII
capital, so that `guidance` keeps all of its letters.

## Main definitions

* `canStart`, `canContinue`: The character classes of identifiers.
* `ofName`: The identifier made from a name.
* `FileName.isAllowed`, `FileName.ofName`: The same for names of files.
* `stripMarker`: A name without the `guid` in front.
* `ofGuidName`: The identifier made from the name of a GUID.

## Theorems

* `canContinue_of_canStart`: What may start an identifier may also continue it.
-/

namespace PackageSymbols

/-- Puts an underscore in place of every character that is not allowed. -/
def underscored (allowed : Char → Bool) (name : List Char) : List Char :=
  name.map fun c => if allowed c then c else '_'

namespace Identifier

/-- Whether a character may start an identifier: an underscore or `XID_Start`. -/
def canStart (c : Char) : Bool :=
  c == '_' || letterRanges.contains c

/-- Whether a character may continue an identifier: `XID_Continue`. -/
def canContinue (c : Char) : Bool :=
  letterRanges.contains c || continuationRanges.contains c

theorem canStart_underscore : canStart '_' = true :=
  rfl

theorem canContinue_underscore : canContinue '_' = true := by
  decide +kernel

/-- What may start an identifier may also continue it. -/
theorem canContinue_of_canStart {c : Char} (h : canStart c = true) : canContinue c = true := by
  rcases Bool.or_eq_true _ _ ▸ h with h | h
  · rw [beq_iff_eq.mp h]
    exact canContinue_underscore
  · rw [canContinue, h, Bool.true_or]

/-- The identifier made from the characters of a name. An underscore goes in front when the
    first character could not start an identifier, or when there is none. -/
def ofChars (name : List Char) : List Char :=
  match underscored canContinue name with
  | [] => ['_']
  | c :: cs => if canStart c then c :: cs else '_' :: c :: cs

/-- The identifier made from a name. -/
def ofName (name : String) : String :=
  String.ofList (ofChars name.toList)

/-- The characters of a name without a leading `guid` in front of an ASCII capital. -/
def stripMarkerChars : List Char → List Char
  | 'g' :: 'u' :: 'i' :: 'd' :: c :: cs =>
      if c.isUpper then c :: cs else 'g' :: 'u' :: 'i' :: 'd' :: c :: cs
  | name => name

/-- A name without a leading `guid` in front of an ASCII capital. -/
def stripMarker (name : String) : String :=
  String.ofList (stripMarkerChars name.toList)

/-- The identifier made from the name of a GUID. -/
def ofGuidName (name : String) : String :=
  ofName (stripMarker name)

end Identifier

namespace FileName

/-- Whether a character may stand in the name of a generated file. -/
def isAllowed (c : Char) : Bool :=
  Identifier.canContinue c ||
    ['.', ',', '-', '_', ' ', '(', ')', '[', ']', '\x7b', '\x7d'].contains c

/-- The file name made from a name. -/
def ofName (name : String) : String :=
  String.ofList (underscored isAllowed name.toList)

end FileName

end PackageSymbols

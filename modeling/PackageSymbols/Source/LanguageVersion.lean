import PackageSymbols.Text.Blank
import PackageSymbols.Text.Case
import PackageSymbols.Text.Digits

/-!
# Language Versions

The version of the language that generated code is compiled as matters in one
point: whether nullable reference types can be turned on. They can from version
eight on, and in the versions that are named for following the newest. Of a
numbered version only the part before the first dot counts.

## Main definitions

* `majorVersion?`: The number of a numbered version.
* `knowsNullable`: Whether a version knows nullable reference types.
-/

namespace PackageSymbols

namespace Source

open Text

/-- The number of a version: the digits before the first dot, which a plus sign may precede,
    denoting a number below 2 ^ 32. -/
def majorVersion? (version : List Char) : Option Nat :=
  let digits :=
    match version.takeWhile (· != '.') with
    | '+' :: digits => digits
    | digits => digits
  (ofDigits? 10 digits).filter (· < UInt32.size)

/-- The names of versions that follow the newest. -/
def followingVersions : List String := ["latest", "latestmajor", "preview"]

/-- Whether a version, with blanks around it or not, knows nullable reference types. -/
def knowsNullable (languageVersion : String) : Bool :=
  let version := trim languageVersion
  followingVersions.any (sameLetters version) ||
    match majorVersion? version.toList with
    | some major => 8 ≤ major
    | none => false

end Source

end PackageSymbols

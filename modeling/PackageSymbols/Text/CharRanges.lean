/-!
# Sets of Characters as Ranges

A Unicode property is a set of code points that its standard lists as closed
ranges. `CharRanges` keeps that shape, so a table can be read against the
standard line by line, and membership is a search through the list: a table is
data, and the one rule about it is `contains`.

## Main definitions

* `CharRanges`: A list of closed ranges of code points.
* `CharRanges.contains`: Whether a character lies in one of the ranges.

## Theorems

* `CharRanges.contains_iff`: Membership is membership in some range.
-/

namespace PackageSymbols

namespace Text

/-- Closed ranges of code points, each given by its first and last member. -/
abbrev CharRanges := List (Nat × Nat)

/-- Whether the character lies in one of the ranges. -/
def CharRanges.contains (ranges : CharRanges) (c : Char) : Bool :=
  ranges.any fun range => range.1 ≤ c.toNat && c.toNat ≤ range.2

/-- Membership in a table is membership in one of its ranges. -/
theorem CharRanges.contains_iff (ranges : CharRanges) (c : Char) :
    ranges.contains c = true ↔ ∃ range ∈ ranges, range.1 ≤ c.toNat ∧ c.toNat ≤ range.2 := by
  simp only [CharRanges.contains, List.any_eq_true, Bool.and_eq_true, decide_eq_true_eq]

end Text

end PackageSymbols

import Mathlib.Data.List.Forall2
import PackageSymbols.Proofs.Identifier

/-!
# Names Are Mended as Little as Possible

What is made from a name is an identifier, but that alone would hold of a way to
make identifiers that forgets the name. Here the name itself says what is made of
it. The characters are mended one by one, each where it stands, and one of them
changes just where it could not continue an identifier. Then an underscore goes in
front if what is left is empty or begins with a character of the wrong class, such
as a digit or a combining mark, which the first step has let pass.

The two steps ask about different classes, so neither of them can be left out, and
the second looks at what the first has made. An identifier is stopped by neither,
and nothing else is left as it is: what is left as it is has been made from itself.

The relation `IsMended` says that a character changes where it has to, rather than
what it is replaced by. It is a function because the underscore may continue an
identifier: a character that has to change is never the underscore, so there is
always something to see of the change.

All of this holds of any two classes, and the tables of Unicode are not looked into.
`Classes.make_mends` is the result, and `names_mended` is what it says of names.

## Main definitions

* `Classes.IsMended`: What becomes of a character.
* `Classes.LacksStart`: A name that needs an underscore in front.
* `Classes.IsMending`, `IsMending`: What becomes of a name.

## Theorems

* `Classes.isMended_iff`, `Classes.forall₂_isMended_iff`: Mending is replacing by an
  underscore.
* `Classes.isMending_iff`: There is one way to mend a name.
* `Classes.make_mends`, `names_mended`: What is made from a name is an identifier, and
  is the name mended; it is the name itself if that is an identifier, and only then.
-/

namespace PackageSymbols

namespace Identifier

namespace Classes

variable (k : Classes)

/-- Whether a character is what becomes of another one: it differs just where the other one cannot
    continue an identifier, and is an underscore there. -/
def IsMended (c made : Char) : Prop :=
  (made ≠ c ↔ k.part c = false) ∧ (made ≠ c → made = '_')

/-- Whether a name needs an underscore in front: it is empty, or begins as no identifier does. -/
def LacksStart : List Char → Prop
  | [] => True
  | c :: _ => k.start c = false

/-- Whether an identifier is what becomes of a name: the characters are mended one by one, and an
    underscore goes in front where one is needed. -/
def IsMending (name made : List Char) : Prop :=
  ∃ mended, List.Forall₂ k.IsMended name mended ∧
    (k.LacksStart mended ∧ made = '_' :: mended ∨ ¬k.LacksStart mended ∧ made = mended)

theorem isMended_iff (c made : Char) :
    k.IsMended c made ↔ (if k.part c then c else '_') = made := by
  unfold IsMended
  by_cases hc : k.part c = true
  · have hnot : k.part c ≠ false := ne_false_of_eq_true hc
    rw [if_pos hc]
    constructor
    · intro h
      by_contra hne
      exact hnot (h.1.mp (Ne.symm hne))
    · intro h
      exact ⟨iff_of_false (fun hne => hne h.symm) hnot, fun hne => absurd h.symm hne⟩
  · have hnot : k.part c = false := eq_false_of_ne_true hc
    rw [if_neg hc]
    constructor
    · intro h
      exact (h.2 (h.1.mpr hnot)).symm
    · intro h
      -- What has to change is not the underscore already.
      have hne : made ≠ c := by
        rw [← h]
        intro hunderscore
        rw [← hunderscore] at hc
        exact hc k.part_underscore
      exact ⟨iff_of_true hne hnot, fun _ => h.symm⟩

theorem forall₂_isMended_iff (name mended : List Char) :
    List.Forall₂ k.IsMended name mended ↔ underscored k.part name = mended := by
  have hmended : k.IsMended = fun c made => (if k.part c then c else '_') = made := by
    funext c made
    exact propext (k.isMended_iff c made)
  rw [hmended, underscored, ← List.forall₂_eq_eq_eq, List.forall₂_map_left_iff]

theorem isMending_iff (name made : List Char) : k.IsMending name made ↔ made = k.make name := by
  unfold IsMending make
  simp only [forall₂_isMended_iff, exists_eq_left']
  cases underscored k.part name with
  | nil => simp only [LacksStart, true_and, not_true_eq_false, false_and, or_false]
  | cons c cs =>
      by_cases hc : k.start c = true
      · simp only [LacksStart, hc, Bool.true_eq_false, false_and, false_or, not_false_eq_true,
          true_and, if_true]
      · simp only [LacksStart, eq_false_of_ne_true hc, true_and, not_true_eq_false, false_and,
          or_false, Bool.false_eq_true, if_false]

/-- By any two classes, what is made from a name is an identifier, it is the name if and only if
    that is one already, and it is what becomes of the name when its characters are mended and an
    underscore is put in front where one is needed. -/
theorem make_mends (name : List Char) :
    k.IsIdentifier (k.make name) ∧
    (k.make name = name ↔ k.IsIdentifier name) ∧
    ∀ made, k.IsMending name made ↔ made = k.make name := by
  have hshape := k.isIdentifier_make name
  refine ⟨hshape, ⟨fun hsame => ?_, k.make_of_isIdentifier⟩, k.isMending_iff name⟩
  rw [hsame] at hshape
  exact hshape

end Classes

/-- Whether an identifier is what becomes of a name by the classes of Unicode. -/
def IsMending (name made : List Char) : Prop :=
  xid.IsMending name made

/-- What is made from a name is an identifier, it is the name if and only if that is one already,
    and it is what becomes of the name when its characters are mended and an underscore is put in
    front where one is needed. -/
theorem names_mended (name : String) :
    IsIdentifier (ofName name).toList ∧
    (ofName name = name ↔ IsIdentifier name.toList) ∧
    ∀ made : String, IsMending name.toList made.toList ↔ made = ofName name := by
  have hchars : (ofName name).toList = xid.make name.toList := by
    rw [ofName, String.toList_ofList, make_xid]
  rcases xid.make_mends name.toList with ⟨hshape, hsame, hmending⟩
  rw [← String.toList_inj, hchars]
  refine ⟨hshape, hsame, fun made => ?_⟩
  rw [← String.toList_inj, hchars]
  exact hmending made.toList

/-- A combining mark may continue an identifier and may not start one. -/
example : ["Foo.Bar", "123", "", "\u0301x"].map ofName = ["Foo_Bar", "_123", "_", "_\u0301x"] := by
  decide +kernel

end Identifier

end PackageSymbols

/-!
# Readings

A document is read from left to right and the first fault ends the reading.
Later stages still have to see what came before the fault, since a stage of its
own may find something wrong there, and that would be reported instead. So a
stage does not answer with either a list or an error: it answers with a
`Reading`, the items read so far and the fault that stopped it, if one did. The
first fault of the whole chain is then the one that comes out, with no stage
knowing about the next.

## Main definitions

* `Reading`: The items before the first fault, and the fault.
* `Reading.traverse`: A stage that may fail on an item.
* `Reading.toExcept`: The items, or the fault.

## Theorems

* `Reading.toExcept_traverse_of_fault_none`: A stage after a complete reading is
  a plain traversal.
-/

namespace PackageSymbols

namespace Markup

/-- What was read before the end or the first fault. -/
structure Reading (ε α : Type) where
  /-- The items, in order. -/
  items : List α
  /-- What stopped the reading early, if something did. -/
  fault : Option ε
deriving Repr

namespace Reading

variable {ε α β : Type}

/-- The reading of nothing. -/
def done : Reading ε α :=
  { items := [], fault := none }

/-- The reading that fails at once. -/
def fail (e : ε) : Reading ε α :=
  { items := [], fault := some e }

/-- An item in front of a reading. -/
def cons (a : α) (r : Reading ε α) : Reading ε α :=
  { r with items := a :: r.items }

/-- Applies a step that may fail to the items in front of a fault. -/
def traverseItems (f : α → Except ε β) (fault : Option ε) : List α → Reading ε β
  | [] => { items := [], fault := fault }
  | a :: as =>
      match f a with
      | .ok b => cons b (traverseItems f fault as)
      | .error e => fail e

/-- Applies a step that may fail to every item; the first failure ends the reading. -/
def traverse (f : α → Except ε β) (r : Reading ε α) : Reading ε β :=
  traverseItems f r.fault r.items

/-- The items of a complete reading, or the fault of another. -/
def toExcept (r : Reading ε α) : Except ε (List α) :=
  match r.fault with
  | none => .ok r.items
  | some e => .error e

/-- A step applied to a complete reading is a plain traversal of its items. -/
theorem toExcept_traverse_of_fault_none (f : α → Except ε β) (r : Reading ε α)
    (h : r.fault = none) : (r.traverse f).toExcept = r.items.mapM f := by
  obtain ⟨items, fault⟩ := r
  subst h
  simp only [traverse]
  induction items with
  | nil => rfl
  | cons a as ih =>
      rw [List.mapM_cons, traverseItems]
      cases hf : f a with
      | error e => rfl
      | ok b =>
          simp only [bind, Except.bind, ← ih, toExcept, cons]
          cases (traverseItems f none as).fault <;> rfl

end Reading

end Markup

end PackageSymbols

import PackageSymbols.Diagnostic
import PackageSymbols.Sorting

/-!
# Merging Declarations

Several declarations may lead to one generated name, since names that differ
become equal when characters are replaced, and since documents repeat each
other. Merging keeps one declaration for each generated name. Declarations are
visited in the order of their names as written, equal names in the order of the
documents; the first to come keeps the name. A later one with the same value
says nothing new and is passed over, a later one with another value is refused
with a warning at its own document.

The order of names is that of their code points. What was kept is told in the
order of generated names.

## Main definitions

* `Declaration`, `Constant`: A declaration, and what one that was kept leads to.
* `Selection.visit`: The decision about one declaration.
* `merge`: The constants and the warnings that declarations lead to.
-/

namespace PackageSymbols

/-- A value that a document declares under a name. -/
structure Declaration (α : Type) where
  /-- The name as written. -/
  written : String
  /-- The generated name. -/
  key : String
  /-- What is declared. -/
  value : α
  /-- The path of the document. -/
  path : String
deriving DecidableEq, Repr

/-- A value under its generated name. -/
structure Constant (α : Type) where
  /-- The generated name. -/
  name : String
  /-- The name as written. -/
  written : String
  /-- The value. -/
  value : α
deriving DecidableEq, Repr

namespace Declaration

variable {α : Type}

/-- What a declaration that was kept leads to. -/
def constant (d : Declaration α) : Constant α where
  name := d.key
  written := d.written
  value := d.value

/-- The warning about a declaration that was refused. -/
def refusal (d : Declaration α) : Diagnostic where
  problem := .conflictingSymbol d.written
  location := Location.ofPath d.path

/-- Whether a declaration is visited before another, or either may be. -/
def precedes (a b : Declaration α) : Bool :=
  decide (a.written ≤ b.written)

end Declaration

/-- Whether a constant comes before another, or either may. -/
def Constant.precedes {α : Type} (a b : Constant α) : Bool :=
  decide (a.name ≤ b.name)

/-- The declarations decided on so far. -/
structure Selection (α : Type) where
  /-- Those that were kept, in the order of the visit. -/
  kept : List (Declaration α)
  /-- Those that were refused, in the order of the visit. -/
  refused : List (Declaration α)
deriving Repr

namespace Selection

variable {α : Type} [DecidableEq α]

/-- Before the visit. -/
def empty : Selection α :=
  { kept := [], refused := [] }

/-- Decides on one declaration. -/
def visit (s : Selection α) (d : Declaration α) : Selection α :=
  match s.kept.find? fun k => k.key == d.key with
  | none => { s with kept := s.kept ++ [d] }
  | some k => if k.value = d.value then s else { s with refused := s.refused ++ [d] }

/-- Decides on a row of declarations. -/
def visitAll (s : Selection α) (ds : List (Declaration α)) : Selection α :=
  ds.foldl visit s

end Selection

/-- The outcome of a merge. -/
structure Merged (α : Type) where
  /-- What was kept, in the order of generated names. -/
  constants : List (Constant α)
  /-- A warning for each declaration that was refused. -/
  diagnostics : Diagnostics
deriving DecidableEq, Repr

/-- Merges declarations that are given in the order of the documents. -/
def merge {α : Type} [DecidableEq α] (declarations : List (Declaration α)) : Merged α :=
  let selection := Selection.empty.visitAll (sortBy Declaration.precedes declarations)
  { constants := sortBy Constant.precedes (selection.kept.map Declaration.constant)
    diagnostics := selection.refused.map Declaration.refusal }

end PackageSymbols

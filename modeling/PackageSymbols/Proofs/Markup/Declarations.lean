import Mathlib.Data.Nat.Basic
import PackageSymbols.Proofs.Markup.Progress

/-!
# Faults of Declarations

A fault in the namespaces that a tag declares is reported at the beginning of the
document, wherever the tag is. All other faults in a piece are reported where the
piece begins.

That no other step finds faults of this kind has to be shown for all steps, and
most are made of others that may fail. `IsClear` is closed under that, so each
function is gone through once, along its own cases.

## Main definitions

* `Cause.isDeclaration`: Whether a cause is about the declaration of a namespace.
* `IsClear`: A step does not fail on a declaration.
* `Fault.IsWithin`: A fault is between two offsets, or that of a declaration.

## Theorems

* `isDeclaration_of_declare`: Declarations have no other faults.
* `isClear_readHead`, `isClear_step`: Tags and the tree have no such faults.
* `handle_isWithin`: Faults in a piece are where it begins.
-/

namespace PackageSymbols

namespace Markup

open Text

/-- Whether a cause is about the declaration of a namespace. -/
def Cause.isDeclaration : Cause → Bool
  | .rebindsXml _ => true
  | .rebindsXmlns _ => true
  | .bindsReserved _ _ => true
  | _ => false

/-- Whether a step cannot fail on the declaration of a namespace. -/
def IsClear {α : Type} (r : Except Cause α) : Prop :=
  ∀ cause, r = .error cause → cause.isDeclaration = false

/-- Whether a fault is between two offsets, or at the beginning of the document and about a
    declaration. -/
def Fault.IsWithin (fault : Fault) (first last : Nat) : Prop :=
  if fault.cause.isDeclaration then fault.offset = 0
  else first ≤ fault.offset ∧ fault.offset ≤ last

section Clear

variable {α β : Type}

theorem isClear_ok (a : α) : IsClear (.ok a) :=
  fun _ h => nomatch h

theorem isClear_error {cause : Cause} (h : cause.isDeclaration = false) :
    IsClear (.error cause : Except Cause α) :=
  fun _ he => Except.error.inj he ▸ h

theorem IsClear.bind {r : Except Cause α} {f : α → Except Cause β} (hr : IsClear r)
    (hf : ∀ a, IsClear (f a)) : IsClear (r >>= f) := by
  cases r with
  | error cause => exact isClear_error (hr cause rfl)
  | ok a => exact hf a

/-- A step that is applied to the items of a reading fails where the reading or the step does. -/
theorem IsClear.traverse {r : Reading Cause α} {f : α → Except Cause β}
    (hr : ∀ cause, r.fault = some cause → cause.isDeclaration = false)
    (hf : ∀ a, IsClear (f a)) : IsClear (r.traverse f).toExcept := by
  have hfault : ∀ cause, (r.traverse f).fault = some cause → cause.isDeclaration = false := by
    rcases r with ⟨items, fault⟩
    induction items with
    | nil => exact hr
    | cons a items ih =>
        intro cause h
        rw [Reading.traverse, Reading.traverseItems] at h
        cases hstep : f a with
        | error other =>
            rw [hstep] at h
            exact Option.some.inj h ▸ hf a other hstep
        | ok b =>
            rw [hstep] at h
            exact ih hr cause h
  intro cause h
  rw [Reading.toExcept] at h
  split at h
  · cases h
  · next hsome => exact Except.error.inj h ▸ hfault _ hsome

end Clear

section Stages

theorem isClear_referenced (offset : Nat) (name : List Char) :
    IsClear (referenced offset name) := by
  rw [referenced.eq_def]
  split
  · split
    · exact isClear_ok _
    · exact isClear_error rfl
  · split
    · exact isClear_ok _
    · exact isClear_error rfl

theorem isClear_resolveFrom (offset : Nat) (cs : List Char) : IsClear (resolveFrom offset cs) := by
  fun_induction resolveFrom offset cs with
  | case1 => exact isClear_ok _
  | case2 offset rest name after hafter ih =>
      exact (isClear_referenced _ _).bind fun c => ih.bind fun text => isClear_ok _
  | case3 => exact isClear_error rfl
  | case4 offset c rest hc ih => exact ih.bind fun text => isClear_ok _

theorem isClear_resolve (cs : List Char) : IsClear (resolve cs) :=
  (isClear_resolveFrom 0 cs).bind fun _ => isClear_ok _

theorem isClear_prefixUri (scope : Scope) (name : List Char) :
    IsClear (scope.prefixUri name) := by
  rw [Scope.prefixUri]
  split
  · exact isClear_ok _
  · exact isClear_error rfl

theorem isClear_elementName (scope : Scope) (name : List Char) :
    IsClear (scope.elementName name) := by
  rw [Scope.elementName]
  split
  · exact isClear_ok _
  · exact (isClear_prefixUri _ _).bind fun _ => isClear_ok _

theorem isClear_attributeName (scope : Scope) (name : List Char) :
    IsClear (scope.attributeName name) := by
  rw [Scope.attributeName]
  split
  · exact isClear_ok _
  · exact (isClear_prefixUri _ _).bind fun _ => isClear_ok _

theorem isClear_quotedValue (offset : Nat) (cs : List Char) :
    IsClear (quotedValue offset cs) := by
  simp only [quotedValue]
  split
  · exact isClear_error rfl
  · split
    · split
      · exact isClear_error rfl
      · exact isClear_ok _
    · exact isClear_error rfl

theorem isClear_attributeAt (earlier : List RawAttribute) (offset : Nat) (first : Char)
    (cs : List Char) : IsClear (attributeAt earlier offset first cs) := by
  simp only [attributeAt]
  split
  · exact isClear_error rfl
  · split
    · split
      · exact isClear_error rfl
      · exact (isClear_quotedValue _ _).bind fun _ => isClear_ok _
    · exact isClear_error rfl

theorem isDeclaration_of_attributesFrom (distinct : Bool) (earlier : List RawAttribute)
    (offset : Nat) (cs : List Char) : ∀ cause,
      (attributesFrom distinct earlier offset cs).fault = some cause →
        cause.isDeclaration = false := by
  fun_induction attributesFrom distinct earlier offset cs with
  | case1 => exact fun _ h => nomatch h
  | case2 earlier offset cs cause hnext =>
      intro other h
      rw [nextAttribute] at hnext
      split at hnext
      · cases hnext
      · exact Option.some.inj h ▸ isClear_attributeAt _ _ _ _ _ (Option.some.inj hnext)
  | case3 earlier offset cs a stop after hnext ih => exact ih

theorem isClear_readAttribute (scope : Scope) (a : RawAttribute) :
    IsClear (readAttribute scope a) := by
  rw [readAttribute]
  split
  · exact isClear_ok _
  · exact (isClear_attributeName _ _).bind fun _ =>
      (isClear_resolve _).bind fun _ => isClear_ok _

theorem isClear_readHead (scope : Scope) (tag : Tag) (position : Position) :
    IsClear (readHead scope tag position) :=
  (isClear_elementName _ _).bind fun _ =>
    (IsClear.traverse (isDeclaration_of_attributesFrom _ _ _ _)
      (isClear_readAttribute scope)).bind fun _ => isClear_ok _

theorem isClear_place (b : Builder) (e : Element) : IsClear (b.place e) := by
  rw [Builder.place]
  split
  · exact isClear_ok _
  · split
    · exact isClear_ok _
    · exact isClear_error rfl

theorem isClear_step (b : Builder) (event : Event) : IsClear (b.step event) := by
  cases event with
  | start head =>
      rw [Builder.step]
      split
      · exact isClear_error rfl
      · exact isClear_ok _
  | empty head => exact isClear_place _ _
  | finish =>
      rw [Builder.step]
      split
      · exact isClear_error rfl
      · exact isClear_place _ _
  | text content =>
      rw [Builder.step]
      split
      · exact isClear_ok _
      · split
        · exact isClear_ok _
        · exact isClear_error rfl

theorem isClear_finish (b : Builder) : IsClear b.finish := by
  rw [Builder.finish]
  split
  · exact isClear_error rfl
  · exact isClear_ok _
  · exact isClear_error rfl

theorem isWithin_of_clear {offset : Nat} {cause : Cause} (h : cause.isDeclaration = false)
    {last : Nat} (hlast : offset ≤ last) : (⟨offset, cause⟩ : Fault).IsWithin offset last := by
  rw [Fault.IsWithin, if_neg (by rw [h]; exact Bool.false_ne_true)]
  exact ⟨le_rfl, hlast⟩

theorem Fault.IsWithin.mono {fault : Fault} {first last : Nat} (h : fault.IsWithin first last)
    {earlier later : Nat} (hfirst : earlier ≤ first) (hlast : last ≤ later) :
    fault.IsWithin earlier later := by
  rw [Fault.IsWithin] at h ⊢
  split at h
  · next hdeclaration =>
      rw [if_pos hdeclaration]
      exact h
  · next hdeclaration =>
      rw [if_neg hdeclaration]
      exact ⟨le_trans hfirst h.1, le_trans h.2 hlast⟩

theorem Fault.IsWithin.offset_le {fault : Fault} {first last : Nat}
    (h : fault.IsWithin first last) : fault.offset ≤ last := by
  rw [Fault.IsWithin] at h
  split at h
  · rw [h]
    exact Nat.zero_le _
  · exact h.2

/-- The fault of markup that does not begin like its kind is where it begins, or before its end. -/
theorem isWithin_of_piece {kind : Kind} {content : List Char} {cause : Cause}
    (h : kind.piece content = .error cause) (offset : Nat) :
    (pieceFault offset content cause).IsWithin offset (offset + 1 + utf8Length content) := by
  have hclosed : ∀ kind : Kind,
      (pieceFault offset content (.unclosed kind)).IsWithin offset
        (offset + 1 + utf8Length content) := fun kind => isWithin_of_clear rfl (by omega)
  cases kind with
  | comment =>
      simp only [Kind.piece] at h
      split at h
      · cases h
      · cases h
        exact hclosed _
  | characterData =>
      simp only [Kind.piece] at h
      split at h
      · cases h
      · cases h
        exact hclosed _
  | doctype =>
      simp only [Kind.piece] at h
      split at h
      · split at h
        · cases h
          have hlast : (⟨offset + 1 + utf8Length content, .unnamedDoctype⟩ : Fault).IsWithin
              (offset + 1 + utf8Length content) (offset + 1 + utf8Length content) :=
            isWithin_of_clear rfl le_rfl
          exact hlast.mono (by omega) le_rfl
        · cases h
      · cases h
        exact hclosed _
  | instruction =>
      simp only [Kind.piece] at h
      split at h
      · cases h
      · cases h
        exact hclosed _
  | tag => cases h

theorem isDeclaration_of_declareOne {scope : Scope} {uri : String} {declaration : Declaration}
    {cause : Cause} (h : scope.declareOne uri declaration = .error cause) :
    cause.isDeclaration = true := by
  cases declaration with
  | unprefixed => cases h
  | «prefixed» name =>
      rw [Scope.declareOne] at h
      split at h
      · split at h
        · cases h
        · cases h
          rfl
      · split at h
        · cases h
          rfl
        · split at h
          · cases h
            rfl
          · cases h

theorem isDeclaration_of_declare {scope : Scope} {attributes : List RawAttribute} {cause : Cause}
    (h : scope.declare attributes = .error cause) : cause.isDeclaration = true := by
  induction attributes generalizing scope with
  | nil => cases h
  | cons a attributes ih =>
      rw [Scope.declare] at h
      split at h
      · exact ih h
      · next declaration _ =>
          cases hone : scope.declareOne (String.ofList a.value) declaration with
          | error other =>
              rw [hone] at h
              exact Except.error.inj h ▸ isDeclaration_of_declareOne hone
          | ok inner =>
              rw [hone] at h
              exact ih h

end Stages

section Pieces

variable {place : Nat → Position}

/-- A fault in a tag is where the tag begins, unless one of its declarations is at fault. -/
theorem isWithin_of_readTag {outer : Scope} {offset : Nat} {position : Position} {tag : Tag}
    {fault : Fault} (h : readTag outer offset position tag = .error fault) :
    fault.IsWithin offset offset := by
  rw [readTag] at h
  split at h
  · next hdeclare =>
      cases h
      rw [Fault.IsWithin, if_pos (isDeclaration_of_declare hdeclare)]
  · split at h
    · next hhead =>
        cases h
        exact isWithin_of_clear (isClear_readHead _ _ _ _ hhead) le_rfl
    · cases h

theorem isWithin_of_readPiece {opened : List OpenTag} {piece : Located Piece} {fault : Fault}
    (h : readPiece place opened piece = .error fault) :
    fault.IsWithin piece.offset piece.offset := by
  rcases piece with ⟨offset, piece⟩
  have htag : ∀ (tag : Tag) (f : Scope × Head → Except Fault (Option Event × List OpenTag)),
      (∀ found, ∃ read, f found = .ok read) →
      readTag (scopeInside opened) offset (place offset) tag >>= f = .error fault →
      fault.IsWithin offset offset := by
    intro tag f hf h
    cases hread : readTag (scopeInside opened) offset (place offset) tag with
    | error other =>
        rw [hread] at h
        exact Except.error.inj h ▸ isWithin_of_readTag hread
    | ok found =>
        rw [hread] at h
        rcases hf found with ⟨read, hread⟩
        exact absurd (hread.symm.trans h) (by simp only [reduceCtorEq, not_false_eq_true])
  cases piece with
  | aside => cases h
  | characterData chars => cases h
  | text chars =>
      simp only [readPiece] at h
      split at h
      · cases h
      · next hresolve =>
          cases h
          exact isWithin_of_clear (isClear_resolve chars _ hresolve) le_rfl
  | startTag content => exact htag _ _ (fun _ => ⟨_, rfl⟩) h
  | emptyTag content => exact htag _ _ (fun _ => ⟨_, rfl⟩) h
  | endTag name =>
      cases opened with
      | nil =>
          cases h
          exact isWithin_of_clear rfl le_rfl
      | cons innermost rest =>
          simp only [readPiece] at h
          split at h
          · cases h
          · cases h
            exact isWithin_of_clear rfl le_rfl

/-- A fault in a piece is where the piece begins, unless it is that of a declaration. -/
theorem handle_isWithin {s : Progress} {piece : Located Piece} {fault : Fault}
    (h : s.handle place piece = .error fault) : fault.IsWithin piece.offset piece.offset := by
  rw [Progress.handle] at h
  split at h
  · next hread =>
      cases h
      exact isWithin_of_readPiece hread
  · cases h
  · split at h
    · cases h
    · next hstep =>
        cases h
        exact isWithin_of_clear (isClear_step _ _ _ hstep) le_rfl

theorem close_isWithin {stop : Nat} {b : Builder} {fault : Fault}
    (h : b.close stop none = .error fault) : fault.IsWithin stop stop := by
  simp only [Builder.close] at h
  split at h
  · cases h
  · next hfinish =>
      cases h
      exact isWithin_of_clear (isClear_finish b _ hfinish) le_rfl

end Pieces

end Markup

end PackageSymbols

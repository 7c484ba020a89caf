import PackageSymbols.Proofs.CommandTable.Places
import PackageSymbols.Proofs.Markup.Faults
import PackageSymbols.Proofs.Markup.Moves

/-!
# Behind a Byte Order Mark

A byte order mark in front of a document is dropped before reading, so nothing of
what is read depends on it but the positions. The offsets count from behind the
mark, but the lines are those of the whole text, and the first of them begins
before the mark. On the first line the mark makes no difference therefore: the
column does not count it. Behind later lines three bytes are missing, and a place
in the first three bytes of such a line appears on a line before.

With and without the mark a document has the same outline (`parse_eq_outline`), and
what is left to compare is the two tables of lines. The errors of a command table
are carried along with the positions of the elements.

## Main definitions

* `marked`: A text behind a byte order mark.
* `EndAlike`: Two readers have related results or related errors.
* `Element.SameUpTo`, `Error.SameUpTo`: Trees and errors are the same but for their
  positions, which are related.

## Theorems

* `endAlike_parse_marked`: A tree is the same, but its positions come early.
* `CommandTable.parse_marked`: A mark makes positions come early and nothing else.
-/

namespace PackageSymbols

open Markup Text

/-- Whether two readers end alike: with related results or with related errors. -/
def EndAlike {ε α : Type} (alike : α → α → Prop) (similar : ε → ε → Prop) :
    Except ε α → Except ε α → Prop
  | .ok a, .ok b => alike a b
  | .error error, .error other => similar error other
  | _, _ => False

namespace Markup

/-- A text behind a byte order mark. -/
def marked (text : String) : String :=
  String.ofList (byteOrderMark :: text.toList)

/-- Whether two trees are the same up to positions, and these are related. -/
def Element.SameUpTo (related : Position → Position → Prop) (root other : Element) : Prop :=
  other.unplaced = root.unplaced ∧
    List.Forall₂ related (root.descendants.map (·.head.position))
      (other.descendants.map (·.head.position))

/-- Whether two errors are the same up to positions, and these are related. -/
def Error.SameUpTo (related : Position → Position → Prop) (error other : Error) : Prop :=
  other.cause = error.cause ∧ related error.position other.position

section Outlines

variable {text : String} (hmark : text.toList.head? ≠ some byteOrderMark)

theorem toList_marked (text : String) : (marked text).toList = byteOrderMark :: text.toList :=
  String.toList_ofList

theorem dropMark_marked (text : String) : dropMark (marked text).toList = text.toList := by
  rw [toList_marked, dropMark, if_pos rfl]

/-- Behind a mark offsets have early positions. -/
theorem position_marked_comesEarly {offset : Nat} (h : offset ≤ utf8Length text.toList) :
    Position.ComesEarly 3 ((LineTable.ofText text).position offset)
      ((LineTable.ofText (marked text)).position offset) :=
  position_comesEarly (by decide) (toList_marked text) h

theorem parse_marked_of_outline :
    parse (marked text) = ((outline text.toList).map
      (Element.moved (onLines (LineTable.ofText (marked text))))).mapError
        fun fault => { position := (LineTable.ofText (marked text)).position fault.offset
                       cause := fault.cause } := by
  rw [parse_eq_outline, dropMark_marked]

include hmark

theorem parse_of_outline :
    parse text = ((outline text.toList).map
      (Element.moved (onLines (LineTable.ofText text)))).mapError
        fun fault => { position := (LineTable.ofText text).position fault.offset
                       cause := fault.cause } := by
  rw [parse_eq_outline, dropMark_of_head? hmark]

/-- The elements of a tree that is read with and without a mark. -/
theorem forall_comesEarly {root : Element} (h : outline text.toList = .ok root) :
    ∀ e ∈ root.descendants,
      Position.ComesEarly 3 (onLines (LineTable.ofText text) e.head.position)
        (onLines (LineTable.ofText (marked text)) e.head.position) := by
  have hplain := parse_of_outline hmark
  have hbehind := @parse_marked_of_outline text
  rw [h] at hplain hbehind
  rcases positions_of_parse hplain with ⟨hfault, hpositions⟩
  have hothers := (positions_of_parse hbehind).2
  rw [dropMark_of_head? hmark] at hfault hpositions
  rw [dropMark_marked] at hothers
  -- Both trees have the positions of the same offsets, in the order of the elements.
  have hboth : List.Forall₂ (Position.ComesEarly 3)
      ((root.moved (onLines (LineTable.ofText text))).descendants.map (·.head.position))
      ((root.moved (onLines (LineTable.ofText (marked text)))).descendants.map
        (·.head.position)) := by
    rw [hpositions, hothers, List.forall₂_map_left_iff, List.forall₂_map_right_iff,
      List.forall₂_same]
    exact fun offset hoffset => position_marked_comesEarly (le_of_mem_tagOffsets hfault hoffset)
  rw [Element.descendants_moved, Element.descendants_moved, List.map_map, List.map_map,
    List.forall₂_map_left_iff, List.forall₂_map_right_iff, List.forall₂_same] at hboth
  exact hboth

/-- A tree behind a mark is the same, but its positions come early, and so are errors. -/
theorem endAlike_parse_marked :
    EndAlike (Element.SameUpTo (Position.ComesEarly 3)) (Error.SameUpTo (Position.ComesEarly 3))
      (parse text) (parse (marked text)) := by
  rw [parse_of_outline hmark, parse_marked_of_outline]
  cases houtline : outline text.toList with
  | error fault =>
      exact ⟨rfl, position_marked_comesEarly (offset_le_of_read houtline)⟩
  | ok root =>
      refine ⟨?_, ?_⟩
      · rw [Element.unplaced_moved, Element.unplaced_moved]
      · rw [Element.descendants_moved, Element.descendants_moved, List.map_map, List.map_map,
          List.forall₂_map_left_iff, List.forall₂_map_right_iff, List.forall₂_same]
        exact forall_comesEarly hmark houtline

end Outlines

end Markup

namespace CommandTable

/-- Whether two errors are the same up to positions, and these are related. -/
def Error.SameUpTo (related : Position → Position → Prop) (error other : Error) : Prop :=
  other.moved (fun _ => default) = error.moved (fun _ => default) ∧
    related error.position other.position

theorem Error.sameUpTo_moved {related : Position → Position → Prop} {f g : Position → Position}
    {error : Error} (h : related (f error.position) (g error.position)) :
    Error.SameUpTo related (error.moved f) (error.moved g) := by
  refine ⟨?_, ?_⟩
  · cases error with
    | markup error => rfl
    | guid name position invalid => rfl
    | id name position invalid => rfl
  · rw [Error.position_moved, Error.position_moved]
    exact h

/-- A byte order mark makes positions come early and nothing else: a document is read with it
    exactly if it is read without, as the same tree but for its positions, and else with the same
    error but for its position; and so for the table in the document. -/
theorem parse_marked {text : String} (hmark : text.toList.head? ≠ some byteOrderMark) :
    EndAlike (Element.SameUpTo (Position.ComesEarly 3))
        (Markup.Error.SameUpTo (Position.ComesEarly 3))
        (Markup.parse text) (Markup.parse (marked text)) ∧
      ∀ name, EndAlike (fun table other => other = table)
        (Error.SameUpTo (Position.ComesEarly 3)) (parse name text)
          (parse name (marked text)) := by
  refine ⟨endAlike_parse_marked hmark, fun name => ?_⟩
  rw [parse, parse, parse_of_outline hmark, parse_marked_of_outline]
  cases houtline : outline text.toList with
  | error fault =>
      exact ⟨rfl, position_marked_comesEarly (offset_le_of_read houtline)⟩
  | ok root =>
      simp only [Except.map, Except.mapError, ofRoot_moved]
      cases hread : ofRoot name root with
      | ok table => rfl
      | error error =>
          -- The error is that of an element, which comes early.
          rcases exists_accuses_of_ofRoot hread with ⟨_, e, he, _, hposition⟩
          refine Error.sameUpTo_moved ?_
          rw [hposition]
          exact forall_comesEarly hmark houtline e he

/-- A document with a literal at fault in the first bytes of its third line. -/
def outdented : String :=
  "<CommandTable>\n<Symbols>\n<GuidSymbol name='A' value='bad'/></Symbols></CommandTable>"

/-- Behind a mark the literal is reported on a line before its own. -/
theorem parse_marked_outdented :
    outdented.toList.head? ≠ some byteOrderMark ∧
      parse "menus" outdented = .error (.guid "A" ⟨2, 0⟩ ⟨"bad"⟩) ∧
      ∃ error, parse "menus" (marked outdented) = .error error ∧
        error.moved (fun _ => default) = .guid "A" default ⟨"bad"⟩ ∧ error.position.line < 2 := by
  have hmark : outdented.toList.head? ≠ some byteOrderMark := by decide
  have hparse : parse "menus" outdented = .error (.guid "A" ⟨2, 0⟩ ⟨"bad"⟩) := by
    decide +kernel
  have hmarked := (parse_marked hmark).2 "menus"
  rw [hparse] at hmarked
  cases herror : parse "menus" (marked outdented) with
  | ok table =>
      rw [herror] at hmarked
      exact absurd hmarked not_false
  | error error =>
      rw [herror] at hmarked
      rcases hmarked with ⟨hsame, _, _, hnear⟩
      exact ⟨hmark, hparse, error, rfl, hsame, hnear (by decide) (by decide)⟩

/-- Not all documents have the same positions behind a mark on later lines, and greater columns on
    the first line. -/
theorem not_forall_parse_marked :
    ¬∀ text : String, text.toList.head? ≠ some byteOrderMark →
      EndAlike
        (Element.SameUpTo fun p q =>
          (p.line = 0 → q = ⟨0, p.column + 3⟩) ∧ (0 < p.line → q = p))
        (Markup.Error.SameUpTo fun p q =>
          (p.line = 0 → q = ⟨0, p.column + 3⟩) ∧ (0 < p.line → q = p))
        (Markup.parse text) (Markup.parse (marked text)) := by
  intro h
  have hplain : Markup.parse "<a>\n<b/></a>" =
      .ok ⟨⟨none, "a", [], ⟨0, 0⟩⟩, [.text "\n", .element ⟨none, "b", [], ⟨1, 0⟩⟩ []]⟩ :=
    parse_eq_of_map_events (by decide +kernel)
  have hbehind : Markup.parse (marked "<a>\n<b/></a>") =
      .ok ⟨⟨none, "a", [], ⟨0, 0⟩⟩, [.text "\n", .element ⟨none, "b", [], ⟨0, 4⟩⟩ []]⟩ :=
    parse_eq_of_map_events (by decide +kernel)
  have halike := h "<a>\n<b/></a>" (by decide)
  rw [hplain, hbehind] at halike
  -- The inner element, which is the second, appears on the first line.
  rcases halike.2 with _ | ⟨_, _ | ⟨hinner, _⟩⟩
  exact absurd (hinner.2 (by decide)) (by decide)

end CommandTable

end PackageSymbols

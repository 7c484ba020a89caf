import Mathlib.Data.List.Induction
import Mathlib.Data.List.TakeWhile
import PackageSymbols.Text.Position

/-!
# Places in a Text

The table of lines is asked for byte offsets and has forgotten the text. What it
answers is told here by the text again: the position of an offset counts the line
feeds of what comes before it, and the bytes since the last of them. That takes
nothing but the two bounds of a line start. Those that belong to the text before
the offset are not beyond it, and all others are, so the table cuts the line
starts where the offset cuts the text (`lineStartsFrom_append`).

Offsets are not told by the text alone, since one may point into a character. The
order of positions is therefore shown from the table: with a greater offset the
same line starts come first, and maybe more.

## Main definitions

* `Position.behind`: The position of what comes behind a text.
* `Position.IsBefore`: The order of positions, by line and then by column.
* `Position.ComesEarly`: A position with bytes missing in front.

## Theorems

* `getLastD_lineStartsFrom`: Since the last line start come the bytes that follow
  the last line feed.
* `position_utf8Length`: The position of an offset, told by the text before it.
* `position_isBefore`: A greater offset within the text has a later position.
* `position_comesEarly`: Offsets that are counted without the first character have
  early positions.
-/

namespace PackageSymbols

namespace Text

/-- The position of what comes behind a text: its line feeds, and the bytes after the last. -/
def Position.behind (before : List Char) : Position where
  line := before.count '\n'
  column := utf8Length (before.reverse.takeWhile (· != '\n'))

/-- Whether a position comes before another. -/
def Position.IsBefore (p q : Position) : Prop :=
  p.line < q.line ∨ p.line = q.line ∧ p.column < q.column

/-- Whether a position is another one some bytes early: on the first line they are the same, and
    on a later line there are bytes missing in front, if need be those of lines before. -/
def Position.ComesEarly (bytes : Nat) (p early : Position) : Prop :=
  (p.line = 0 → early = p) ∧
    (0 < p.line → bytes ≤ p.column → early = ⟨p.line, p.column - bytes⟩) ∧
    (0 < p.line → p.column < bytes → early.line < p.line)

section Starts

theorem lineStartsFrom_append (offset : Nat) (before rest : List Char) :
    lineStartsFrom offset (before ++ rest) =
      lineStartsFrom offset before ++ lineStartsFrom (offset + utf8Length before) rest := by
  induction before generalizing offset with
  | nil => rfl
  | cons c before ih =>
      rw [List.cons_append, lineStartsFrom, lineStartsFrom, ih, utf8Length_cons, Nat.add_assoc]
      split
      · rw [List.cons_append]
      · rfl

/-- A line begins behind the beginning of the text, and not behind its end. -/
theorem bounds_of_mem_lineStartsFrom {offset start : Nat} {cs : List Char}
    (h : start ∈ lineStartsFrom offset cs) : offset < start ∧ start ≤ offset + utf8Length cs := by
  induction cs generalizing offset with
  | nil => exact absurd h List.not_mem_nil
  | cons c cs ih =>
      have hc := c.utf8Size_pos
      rw [lineStartsFrom] at h
      rw [utf8Length_cons]
      split at h
      · rcases List.mem_cons.mp h with rfl | h
        · omega
        · have := ih h
          omega
      · have := ih h
        omega

theorem pairwise_lineStartsFrom (offset : Nat) (cs : List Char) :
    (lineStartsFrom offset cs).Pairwise (· < ·) := by
  induction cs generalizing offset with
  | nil => exact .nil
  | cons c cs ih =>
      rw [lineStartsFrom]
      split
      · exact List.pairwise_cons.mpr
          ⟨fun start hstart => (bounds_of_mem_lineStartsFrom hstart).1, ih _⟩
      · exact ih _

/-- In a text that stands further behind all lines begin further behind. -/
theorem lineStartsFrom_add (offset bytes : Nat) (cs : List Char) :
    lineStartsFrom (offset + bytes) cs = (lineStartsFrom offset cs).map (· + bytes) := by
  induction cs generalizing offset with
  | nil => rfl
  | cons c cs ih =>
      rw [lineStartsFrom, lineStartsFrom, Nat.add_right_comm, ih]
      split
      · rw [List.map_cons]
      · rfl

theorem length_lineStartsFrom (offset : Nat) (cs : List Char) :
    (lineStartsFrom offset cs).length = cs.count '\n' := by
  induction cs generalizing offset with
  | nil => rfl
  | cons c cs ih =>
      rw [lineStartsFrom]
      by_cases hc : c = '\n'
      · rw [if_pos hc, List.length_cons, ih, hc, List.count_cons_self]
      · rw [if_neg hc, ih, List.count_cons_of_ne hc]

/-- Since the last line start come the bytes that follow the last line feed. -/
theorem getLastD_lineStartsFrom (offset : Nat) (cs : List Char) :
    (lineStartsFrom offset cs).getLastD offset + utf8Length (cs.reverse.takeWhile (· != '\n')) =
      offset + utf8Length cs := by
  induction cs using List.reverseRecOn with
  | nil => rfl
  | append_singleton cs c ih =>
      rw [lineStartsFrom_append, utf8Length_append, List.reverse_append, List.reverse_singleton,
        List.singleton_append, lineStartsFrom, lineStartsFrom, utf8Length_cons, utf8Length_nil]
      by_cases hc : c = '\n'
      · rw [if_pos hc, List.getLastD_concat, List.takeWhile_cons_of_neg (by simp [hc]),
          utf8Length_nil]
        omega
      · rw [if_neg hc, List.append_nil, List.takeWhile_cons_of_pos (by simp [hc]), utf8Length_cons]
        omega

/-- The line starts up to the end of a front of the text are those of the front. -/
theorem takeWhile_lineStartsFrom (before rest : List Char) :
    (lineStartsFrom 0 (before ++ rest)).takeWhile (· ≤ utf8Length before) =
      lineStartsFrom 0 before := by
  have hfront : ∀ start ∈ lineStartsFrom 0 before, decide (start ≤ utf8Length before) = true := by
    intro start hstart
    have := bounds_of_mem_lineStartsFrom hstart
    exact decide_eq_true (by omega)
  have hrest : (lineStartsFrom (0 + utf8Length before) rest).takeWhile
      (· ≤ utf8Length before) = [] := by
    rw [List.takeWhile_eq_nil_iff]
    intro hlen hle
    have hfirst := (bounds_of_mem_lineStartsFrom (List.get_mem _ ⟨0, hlen⟩)).1
    have hle := of_decide_eq_true hle
    omega
  rw [lineStartsFrom_append, List.takeWhile_append_of_pos hfront, hrest, List.append_nil]

/-- The last line start up to an offset, and the last one that is some bytes before it. -/
theorem comesEarly_of_pairwise {starts : List Nat} (h : starts.Pairwise (· < ·))
    (bytes offset : Nat) :
    Position.ComesEarly bytes
      { line := (starts.takeWhile (· ≤ offset)).length
        column := offset - (starts.takeWhile (· ≤ offset)).getLastD 0 }
      { line := (starts.takeWhile (· + bytes ≤ offset)).length
        column :=
          offset - ((starts.takeWhile (· + bytes ≤ offset)).map (· + bytes)).getLastD 0 } := by
  have hboth : starts.takeWhile (· + bytes ≤ offset) =
      (starts.takeWhile (· ≤ offset)).takeWhile (· + bytes ≤ offset) := by
    rw [List.takeWhile_takeWhile]
    refine congrArg (List.takeWhile · _) (funext fun start => ?_)
    rw [decide_eq_decide, decide_eq_true_iff, decide_eq_true_iff]
    omega
  have hle : ∀ start ∈ starts.takeWhile (· ≤ offset), start ≤ offset := fun start hstart =>
    of_decide_eq_true
      (List.mem_takeWhile_imp (p := fun start => decide (start ≤ offset)) hstart)
  have hsorted := h.sublist (List.takeWhile_sublist (· ≤ offset))
  rw [hboth]
  generalize starts.takeWhile (· ≤ offset) = begun at hle hsorted
  rcases List.eq_nil_or_concat begun with rfl | ⟨front, last, hconcat⟩
  · exact ⟨fun _ => rfl, fun hline => absurd hline (lt_irrefl 0),
      fun hline => absurd hline (lt_irrefl 0)⟩
  · rw [List.concat_eq_append] at hconcat
    subst hconcat
    have hlast := hle last (List.mem_append_right _ List.mem_cons_self)
    simp only [Position.ComesEarly, List.getLastD_concat, List.length_append,
      List.length_singleton]
    refine ⟨fun hline => absurd hline (Nat.succ_ne_zero _), fun _ hfar => ?_, fun _ hnear => ?_⟩
    · -- The last line start is far enough, and the others come before it.
      have hall : ∀ start ∈ front ++ [last], decide (start + bytes ≤ offset) = true := by
        intro start hstart
        have horder : start ≤ last := by
          rcases List.mem_append.mp hstart with hfront | hend
          · exact ((List.pairwise_append.mp hsorted).2.2 start hfront last
              List.mem_cons_self).le
          · exact (List.mem_singleton.mp hend).le
        exact decide_eq_true (by omega)
      rw [List.takeWhile_eq_self_iff.mpr hall, List.map_append, List.map_singleton,
        List.getLastD_concat, List.length_append, List.length_singleton, Nat.sub_sub]
    · have hprefix := List.takeWhile_prefix (l := front ++ [last])
        (fun start => decide (start + bytes ≤ offset))
      have hlength := hprefix.length_le
      rw [List.length_append, List.length_singleton] at hlength
      refine lt_of_le_of_ne hlength fun hsame => ?_
      have hwhole := hprefix.eq_of_length
        (hsame.trans (by rw [List.length_append, List.length_singleton]))
      have hend := List.takeWhile_eq_self_iff.mp hwhole last
        (List.mem_append_right _ List.mem_cons_self)
      have hfar := of_decide_eq_true hend
      omega

end Starts

section Table

variable {text : String}

/-- The position of an offset within a text: the lines that begin behind the first and up to the
    offset, and the bytes since the last of them. No offset counts as more than the greatest. -/
theorem position_of_min {offset : Nat} (h : min offset maxOffset ≤ utf8Length text.toList) :
    (LineTable.ofText text).position offset =
      { line := ((lineStartsFrom 0 text.toList).takeWhile (· ≤ min offset maxOffset)).length
        column := min offset maxOffset -
          ((lineStartsFrom 0 text.toList).takeWhile (· ≤ min offset maxOffset)).getLastD 0 } := by
  have hfirst : decide (0 ≤ min offset maxOffset) = true := decide_eq_true (Nat.zero_le _)
  simp only [LineTable.position, LineTable.ofText, Nat.min_eq_left h, List.takeWhile_cons, hfirst,
    if_true, List.length_cons, Nat.add_sub_cancel, List.getLastD_cons]

theorem position_zero (text : String) : (LineTable.ofText text).position 0 = ⟨0, 0⟩ := by
  have hnone := takeWhile_lineStartsFrom [] text.toList
  rw [List.nil_append, utf8Length_nil] at hnone
  rw [position_of_min (Nat.zero_le _), Nat.zero_min, hnone]
  rfl

/-- Behind a character at the beginning of the text positions come early if offsets are counted
    without it. -/
theorem position_comesEarly {c : Char} (hc : c ≠ '\n') {marked : String}
    (hmarked : marked.toList = c :: text.toList) {offset : Nat}
    (h : offset ≤ utf8Length text.toList) :
    Position.ComesEarly c.utf8Size ((LineTable.ofText text).position offset)
      ((LineTable.ofText marked).position offset) := by
  have hle : min offset maxOffset ≤ utf8Length text.toList := (min_le_left _ _).trans h
  have hmore : min offset maxOffset ≤ utf8Length marked.toList := by
    rw [hmarked, utf8Length_cons]
    omega
  rw [position_of_min hle, position_of_min hmore, hmarked, lineStartsFrom, if_neg hc,
    lineStartsFrom_add, List.takeWhile_map]
  rw [List.length_map]
  exact comesEarly_of_pairwise (pairwise_lineStartsFrom 0 text.toList) _ _

variable (hsize : utf8Length text.toList < UInt32.size)

include hsize

/-- The position of an offset within a text that is not too long. -/
theorem position_of_le {offset : Nat} (h : offset ≤ utf8Length text.toList) :
    (LineTable.ofText text).position offset =
      { line := ((lineStartsFrom 0 text.toList).takeWhile (· ≤ offset)).length
        column := offset -
          ((lineStartsFrom 0 text.toList).takeWhile (· ≤ offset)).getLastD 0 } := by
  have hmax : min offset maxOffset = offset :=
    Nat.min_eq_left (Nat.le_sub_one_of_lt (h.trans_lt hsize))
  rw [position_of_min (hmax.le.trans h), hmax]

/-- The position of an offset, told by the text before it. -/
theorem position_utf8Length {before rest : List Char} (htext : text.toList = before ++ rest) :
    (LineTable.ofText text).position (utf8Length before) = Position.behind before := by
  have hle : utf8Length before ≤ utf8Length text.toList := by
    rw [htext, utf8Length_append]
    exact Nat.le_add_right _ _
  have hlast := getLastD_lineStartsFrom 0 before
  rw [position_of_le hsize hle, htext, takeWhile_lineStartsFrom, length_lineStartsFrom,
    Position.behind, Position.mk.injEq]
  exact ⟨rfl, by omega⟩

/-- A greater offset within the text has a later position. -/
theorem position_isBefore {offset other : Nat} (hlt : offset < other)
    (hother : other ≤ utf8Length text.toList) :
    ((LineTable.ofText text).position offset).IsBefore
      ((LineTable.ofText text).position other) := by
  rw [position_of_le hsize (hlt.le.trans hother), position_of_le hsize hother]
  -- The line starts up to the smaller offset come first among those up to the greater one.
  have hfront : (lineStartsFrom 0 text.toList).takeWhile (· ≤ offset) <+:
      (lineStartsFrom 0 text.toList).takeWhile (· ≤ other) := by
    have hboth : (lineStartsFrom 0 text.toList).takeWhile (· ≤ offset) =
        ((lineStartsFrom 0 text.toList).takeWhile (· ≤ other)).takeWhile (· ≤ offset) := by
      rw [List.takeWhile_takeWhile]
      refine congrArg (List.takeWhile · _) (funext fun start => ?_)
      rw [decide_eq_decide, decide_eq_true_iff, decide_eq_true_iff]
      omega
    rw [hboth]
    exact List.takeWhile_prefix _
  rcases hfront.length_le.lt_or_eq with hless | hsame
  · exact Or.inl hless
  · -- On the same line the column is counted from the same line start, which is not beyond.
    rw [hfront.eq_of_length hsame]
    refine Or.inr ⟨rfl, ?_⟩
    have hlast : ((lineStartsFrom 0 text.toList).takeWhile (· ≤ other)).getLastD 0 ≤ offset := by
      rw [← hfront.eq_of_length hsame]
      have hlast := List.getLastD_mem_cons (a := 0)
        (l := (lineStartsFrom 0 text.toList).takeWhile (· ≤ offset))
      rcases List.mem_cons.mp hlast with hzero | hmem
      · exact hzero.le.trans offset.zero_le
      · have hle := List.mem_takeWhile_imp (p := fun start => decide (start ≤ offset)) hmem
        exact of_decide_eq_true hle
    exact Nat.sub_lt_sub_right hlast hlt

end Table

end Text

end PackageSymbols

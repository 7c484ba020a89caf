import Mathlib.Data.Set.Function
import Mathlib.Order.Bounds.Defs
import Mathlib.Order.Interval.Set.Defs
import PackageSymbols.Proofs.Lines
import PackageSymbols.Proofs.Scanning

/-!
# Offsets Among the Bytes of a Text

An offset counts bytes and may point into a character, where no front of the text
ends. So `position_utf8Length`, which tells a position by the text before it, is
silent about most offsets of a text that is not ASCII, and about all that are beyond
the end. What there always is before an offset is a row of bytes, and by the bytes
every position can be told: the line counts the line feeds among them, and the
column starts behind the last one.

The table is made from characters and adds up their sizes. That the line starts in
it are the places behind bytes takes one fact about the UTF-8 form, which is that
the byte of a line feed is no part of any other character (`lineFeed_notMem`). From
there on no character is looked at again.

Whether the lookup can fail is a question of its own. `LineTable.position` walks
along the line starts and cannot, since the last of no line starts is zero. A lookup
that does not walk has to ask for line starts by their number, and takes what it got
from the offset. `LineTable.position?` is that lookup, by halving, and it fails where
a number is too great or a difference would be negative. Neither comes up, because
the row is ascending and begins with zero, and the position is the same.

## Main definitions

* `bytesOf`, `lineFeed`: The bytes of a text, and the one that ends a line.
* `BeginsLine`: The places where a line begins.
* `Position.IsAt`: The position of an offset, told by the bytes.
* `bisect?`, `LineTable.position?`: The lookup by halving.
* `feedEndsFrom`: The places behind line feeds.
* `LineTable.Locates`: What a table of lines is good for.

## Theorems

* `lineStartsFrom_eq`: Lines begin behind the bytes that are line feeds.
* `length_takeWhile_feedEndsFrom`, `isGreatest_getLastD`: The two numbers of a
  position.
* `bisect?_eq_some`: Halving finds the number of entries up to an offset.
* `position?_eq`: The lookup by halving does not fail.
* `offsets_located`: The table of a text locates all offsets.
-/

namespace PackageSymbols

namespace Text

/-- The bytes of the UTF-8 form of a text. -/
def bytesOf (text : String) : List UInt8 :=
  text.toUTF8.data.toList

/-- The byte that ends a line. -/
def lineFeed : UInt8 := 0x0A

/-- Whether a line begins at a place among bytes: at the first one, or behind a line feed. -/
def BeginsLine (bytes : List UInt8) (start : Nat) : Prop :=
  start = 0 ∨ ∃ feed, bytes[feed]? = some lineFeed ∧ start = feed + 1

/-- Whether a position is that of an offset among bytes. -/
structure Position.IsAt (p : Position) (bytes : List UInt8) (offset : Nat) : Prop where
  /-- There are as many lines before it as line feeds before the offset. -/
  line_eq : p.line = (bytes.take offset).count lineFeed
  /-- The column leads to the offset from where the last line begins that begins up to it. -/
  column_eq : ∃ start, IsGreatest {start | BeginsLine bytes start ∧ start ≤ offset} start ∧
    start + p.column = offset

/-- How many entries of an ascending row are up to an offset, found by halving the range from `low`
    to `high`. There is no answer where the row is asked for an entry that it does not have. -/
def bisect? (starts : List Nat) (offset low high : Nat) : Option Nat :=
  if low < high then
    match starts[(low + high) / 2]? with
    | none => none
    | some start =>
        if start ≤ offset then bisect? starts offset ((low + high) / 2 + 1) high
        else bisect? starts offset low ((low + high) / 2)
  else some low
termination_by high - low

/-- The position of a byte offset, looked up by halving. There is no answer where the table is asked
    for a line start that it does not have, or where the offset is not behind the one it has. -/
def LineTable.position? (table : LineTable) (offset : Nat) : Option Position := do
  let offset := min (min offset maxOffset) table.size
  let begun ← bisect? table.starts offset 0 table.starts.length
  let start ← table.starts[begun - 1]?
  if start ≤ offset then some ⟨begun - 1, offset - start⟩ else none

/-- The places behind the line feeds of bytes that begin at `offset`. -/
def feedEndsFrom (offset : Nat) : List UInt8 → List Nat
  | [] => []
  | b :: bs =>
      if b = lineFeed then (offset + 1) :: feedEndsFrom (offset + 1) bs
      else feedEndsFrom (offset + 1) bs

theorem Position.IsBefore.ne {p q : Position} (h : p.IsBefore q) : p ≠ q := by
  rintro rfl
  rcases h with hline | ⟨_, hcolumn⟩
  · exact lt_irrefl _ hline
  · exact lt_irrefl _ hcolumn

/-- The position of an offset has no number that is greater than the offset. -/
theorem Position.IsAt.le {p : Position} {bytes : List UInt8} {offset : Nat}
    (h : p.IsAt bytes offset) : p.line ≤ offset ∧ p.column ≤ offset := by
  rcases h.column_eq with ⟨start, _, hcolumn⟩
  have hline : (bytes.take offset).count lineFeed ≤ (bytes.take offset).length :=
    List.count_le_length
  rw [← h.line_eq, List.length_take] at hline
  exact ⟨hline.trans (min_le_left _ _), by omega⟩

section Bytes

/-- The byte of a line feed stands for nothing else, not even as a part. -/
theorem lineFeed_notMem {c : Char} (hc : c ≠ '\n') : lineFeed ∉ String.utf8EncodeChar c := by
  have hvalue : c.val.toNat ≠ 10 := by
    intro h
    exact hc (Char.ext (UInt32.toNat_inj.mp h))
  have hbyte : ∀ n < 256, n ≠ 10 → lineFeed ≠ UInt8.ofNat n := by
    intro n hn hne heq
    have hvalues := congrArg UInt8.toNat heq
    rw [UInt8.toNat_ofNat_of_lt' hn] at hvalues
    exact hne hvalues.symm
  unfold String.utf8EncodeChar
  dsimp only
  split_ifs
  all_goals simp only [List.mem_cons, List.not_mem_nil, or_false, not_or]
  -- A single byte is the character itself, and each of several has its highest bit set.
  · exact hbyte _ (by omega) hvalue
  all_goals and_intros <;> exact hbyte _ (by omega) (by omega)

theorem feedEndsFrom_append (offset : Nat) (xs ys : List UInt8) :
    feedEndsFrom offset (xs ++ ys) =
      feedEndsFrom offset xs ++ feedEndsFrom (offset + xs.length) ys := by
  induction xs generalizing offset with
  | nil => rfl
  | cons b bs ih =>
      rw [List.cons_append, feedEndsFrom, feedEndsFrom, ih, List.length_cons,
        show offset + 1 + bs.length = offset + (bs.length + 1) by omega]
      split
      · rw [List.cons_append]
      · rfl

theorem feedEndsFrom_of_notMem {offset : Nat} {bytes : List UInt8} (h : lineFeed ∉ bytes) :
    feedEndsFrom offset bytes = [] := by
  induction bytes generalizing offset with
  | nil => rfl
  | cons b bs ih =>
      rw [List.mem_cons, not_or] at h
      rw [feedEndsFrom, if_neg (Ne.symm h.1), ih h.2]

/-- Lines begin behind the bytes that are line feeds. -/
theorem lineStartsFrom_eq (offset : Nat) (cs : List Char) :
    lineStartsFrom offset cs = feedEndsFrom offset (cs.flatMap String.utf8EncodeChar) := by
  induction cs generalizing offset with
  | nil => rfl
  | cons c cs ih =>
      rw [lineStartsFrom, List.flatMap_cons, feedEndsFrom_append, String.length_utf8EncodeChar, ih]
      by_cases hc : c = '\n'
      · rw [if_pos hc, hc]
        rfl
      · rw [if_neg hc, feedEndsFrom_of_notMem (lineFeed_notMem hc), List.nil_append]

theorem bytesOf_eq (text : String) :
    bytesOf text = text.toList.flatMap String.utf8EncodeChar := by
  have hbytes : (String.ofList text.toList).toByteArray = text.toList.utf8Encode :=
    String.toByteArray_ofList
  rw [String.ofList_toList] at hbytes
  rw [bytesOf, String.toUTF8_eq_toByteArray, hbytes, List.utf8Encode, List.toList_data_toByteArray]

theorem utf8Length_eq (text : String) : utf8Length text.toList = (bytesOf text).length := by
  rw [bytesOf_eq]
  induction text.toList with
  | nil => rfl
  | cons c cs ih =>
      rw [utf8Length_cons, List.flatMap_cons, List.length_append, String.length_utf8EncodeChar, ih]

theorem takeWhile_cons_of_le {first offset : Nat} (h : first ≤ offset) (rest : List Nat) :
    (first :: rest).takeWhile (· ≤ offset) = first :: rest.takeWhile (· ≤ offset) := by
  rw [List.takeWhile_cons, decide_eq_true h, if_pos rfl]

theorem takeWhile_cons_of_lt {first offset : Nat} (h : offset < first) (rest : List Nat) :
    (first :: rest).takeWhile (· ≤ offset) = [] :=
  takeWhile_cons_of_false (p := fun start => decide (start ≤ offset))
    (decide_eq_false (Nat.not_le_of_lt h)) rest

/-- Up to an offset there are as many lines that begin as line feeds before it. -/
theorem length_takeWhile_feedEndsFrom (first offset : Nat) (bytes : List UInt8) :
    ((feedEndsFrom first bytes).takeWhile (· ≤ offset)).length =
      (bytes.take (offset - first)).count lineFeed := by
  induction bytes generalizing first with
  | nil =>
      rw [List.take_nil]
      rfl
  | cons b bs ih =>
      rw [feedEndsFrom]
      by_cases hfar : first < offset
      · rw [show offset - first = offset - (first + 1) + 1 by omega, List.take_succ_cons]
        by_cases hb : b = lineFeed
        · rw [if_pos hb, takeWhile_cons_of_le hfar, List.length_cons, ih, hb, List.count_cons_self]
        · rw [if_neg hb, ih, List.count_cons_of_ne hb]
      · rw [show offset - first = 0 by omega, List.take_zero, List.count_nil]
        by_cases hb : b = lineFeed
        · rw [if_pos hb, takeWhile_cons_of_lt (by omega), List.length_nil]
        · rw [if_neg hb, ih, show offset - (first + 1) = 0 by omega, List.take_zero,
            List.count_nil]

theorem mem_feedEndsFrom {first start : Nat} {bytes : List UInt8} :
    start ∈ feedEndsFrom first bytes ↔
      ∃ feed, bytes[feed]? = some lineFeed ∧ start = first + feed + 1 := by
  induction bytes generalizing first with
  | nil =>
      refine iff_of_false List.not_mem_nil ?_
      rintro ⟨feed, hfeed, _⟩
      rw [List.getElem?_nil] at hfeed
      exact absurd hfeed (by simp only [reduceCtorEq, not_false_eq_true])
  | cons b bs ih =>
      have hmore : start ∈ feedEndsFrom (first + 1) bs ↔
          ∃ feed, (b :: bs)[feed + 1]? = some lineFeed ∧ start = first + (feed + 1) + 1 := by
        simp only [ih, List.getElem?_cons_succ, Nat.add_assoc, Nat.add_comm 1]
      rw [feedEndsFrom, ← Nat.or_exists_add_one, List.getElem?_cons_zero, Option.some.injEq,
        ← hmore]
      by_cases hb : b = lineFeed
      · rw [if_pos hb, List.mem_cons, and_iff_right hb, Nat.add_zero]
      · rw [if_neg hb, or_iff_right fun h => hb h.1]

theorem beginsLine_iff {bytes : List UInt8} {start : Nat} :
    BeginsLine bytes start ↔ start ∈ 0 :: feedEndsFrom 0 bytes := by
  rw [BeginsLine, List.mem_cons, mem_feedEndsFrom]
  simp only [Nat.zero_add]

end Bytes

section Rows

/-- In an ascending row the entries up to an offset are those that come first. -/
theorem le_iff_lt_length_takeWhile {starts : List Nat} (h : starts.Pairwise (· < ·))
    {offset place start : Nat} (hstart : starts[place]? = some start) :
    start ≤ offset ↔ place < (starts.takeWhile (· ≤ offset)).length := by
  induction starts generalizing place with
  | nil => exact absurd hstart (by simp only [List.getElem?_nil, reduceCtorEq, not_false_eq_true])
  | cons first rest ih =>
      rw [List.pairwise_cons] at h
      by_cases hfirst : first ≤ offset
      · rw [takeWhile_cons_of_le hfirst, List.length_cons]
        cases place with
        | zero =>
            rw [List.getElem?_cons_zero, Option.some.injEq] at hstart
            exact iff_of_true (hstart ▸ hfirst) (Nat.succ_pos _)
        | succ place =>
            rw [List.getElem?_cons_succ] at hstart
            rw [ih h.2 hstart, Nat.add_lt_add_iff_right]
      · rw [takeWhile_cons_of_lt (by omega), List.length_nil]
        -- The first entry is beyond the offset, and no entry comes before it.
        have hge : first ≤ start := by
          rcases List.mem_cons.mp (List.mem_of_getElem? hstart) with rfl | hrest
          · exact le_refl _
          · exact (h.1 start hrest).le
        exact iff_of_false (by omega) (Nat.not_lt_zero _)

/-- Halving finds the number of entries up to an offset, and asks for no entry that is missing. -/
theorem bisect?_eq_some {starts : List Nat} (h : starts.Pairwise (· < ·)) {offset low high : Nat}
    (hlow : low ≤ (starts.takeWhile (· ≤ offset)).length)
    (hhigh : (starts.takeWhile (· ≤ offset)).length ≤ high) (hlength : high ≤ starts.length) :
    bisect? starts offset low high = some (starts.takeWhile (· ≤ offset)).length := by
  fun_induction bisect? starts offset low high with
  | case1 low high hlt hnone =>
      rw [List.getElem?_eq_none_iff] at hnone
      omega
  | case2 low high hlt start hstart hle ih =>
      have hplace := (le_iff_lt_length_takeWhile h hstart).mp hle
      exact ih (by omega) hhigh hlength
  | case3 low high hlt start hstart hle ih =>
      have hplace := mt (le_iff_lt_length_takeWhile h hstart).mpr hle
      exact ih hlow (by omega) (by omega)
  | case4 low high hge =>
      rw [Option.some.injEq]
      omega

/-- The entry that is found is the last one up to the offset. -/
theorem getElem?_length_takeWhile (first : Nat) (rest : List Nat) (offset : Nat) :
    (first :: rest)[(rest.takeWhile (· ≤ offset)).length]? =
      some ((rest.takeWhile (· ≤ offset)).getLastD first) := by
  induction rest generalizing first with
  | nil => rfl
  | cons second rest ih =>
      by_cases hsecond : second ≤ offset
      · rw [takeWhile_cons_of_le hsecond, List.length_cons, List.getElem?_cons_succ, ih,
          List.getLastD_cons]
      · rw [takeWhile_cons_of_lt (by omega)]
        rfl

/-- In an ascending row the last entry up to an offset is the greatest one up to it. -/
theorem isGreatest_getLastD {first : Nat} {rest : List Nat}
    (h : (first :: rest).Pairwise (· < ·)) {offset : Nat} (hfirst : first ≤ offset) :
    IsGreatest {start | start ∈ first :: rest ∧ start ≤ offset}
      ((rest.takeWhile (· ≤ offset)).getLastD first) := by
  induction rest generalizing first with
  | nil =>
      refine ⟨⟨List.mem_cons_self, hfirst⟩, ?_⟩
      rintro start ⟨hstart, _⟩
      exact (List.mem_singleton.mp hstart).le
  | cons second rest ih =>
      rw [List.pairwise_cons] at h
      have horder : first < second := h.1 second List.mem_cons_self
      by_cases hsecond : second ≤ offset
      · rw [takeWhile_cons_of_le hsecond, List.getLastD_cons]
        rcases ih h.2 hsecond with ⟨⟨hmem, hle⟩, hupper⟩
        refine ⟨⟨List.mem_cons_of_mem _ hmem, hle⟩, ?_⟩
        rintro start ⟨hstart, hstartle⟩
        rcases List.mem_cons.mp hstart with rfl | hrest
        · exact horder.le.trans (hupper ⟨List.mem_cons_self, hsecond⟩)
        · exact hupper ⟨hrest, hstartle⟩
      · rw [takeWhile_cons_of_lt (by omega)]
        refine ⟨⟨List.mem_cons_self, hfirst⟩, ?_⟩
        rintro start ⟨hstart, hstartle⟩
        rcases List.mem_cons.mp hstart with rfl | hrest
        · exact le_refl _
        -- All other entries come behind the second one, which is beyond the offset.
        · exfalso
          rcases List.mem_cons.mp hrest with rfl | hrest
          · exact hsecond hstartle
          · exact hsecond ((List.rel_of_pairwise_cons h.2 hrest).le.trans hstartle)

end Rows

section Table

variable {text : String}

theorem size_ofText (text : String) : (LineTable.ofText text).size = (bytesOf text).length :=
  utf8Length_eq text

theorem starts_ofText (text : String) :
    (LineTable.ofText text).starts = 0 :: feedEndsFrom 0 (bytesOf text) := by
  rw [LineTable.ofText, lineStartsFrom_eq, bytesOf_eq]

theorem pairwise_starts (text : String) :
    (0 :: feedEndsFrom 0 (bytesOf text)).Pairwise (· < ·) := by
  rw [← starts_ofText]
  exact List.pairwise_cons.mpr
    ⟨fun _ hstart => (bounds_of_mem_lineStartsFrom hstart).1, pairwise_lineStartsFrom 0 _⟩

/-- No line begins beyond the end of the text. -/
theorem le_of_mem_starts {start : Nat} (h : start ∈ (LineTable.ofText text).starts) :
    start ≤ (bytesOf text).length := by
  rcases List.mem_cons.mp h with rfl | h
  · exact Nat.zero_le _
  · have hbound := (bounds_of_mem_lineStartsFrom h).2
    rw [utf8Length_eq, Nat.zero_add] at hbound
    exact hbound

variable (hsize : (bytesOf text).length < UInt32.size)

include hsize

/-- Clamping to the greatest offset first makes no difference. -/
theorem min_maxOffset (offset : Nat) :
    min (min offset maxOffset) (bytesOf text).length = min offset (bytesOf text).length := by
  rw [maxOffset]
  omega

/-- The position of an offset by the places behind line feeds: how many there are up to the place
    that the offset stands for, and the bytes since the last one. -/
theorem position_of_feedEnds {offset place : Nat}
    (hplace : min offset (bytesOf text).length = place) :
    (LineTable.ofText text).position offset =
      { line := ((feedEndsFrom 0 (bytesOf text)).takeWhile (· ≤ place)).length
        column := place - ((feedEndsFrom 0 (bytesOf text)).takeWhile (· ≤ place)).getLastD 0 } := by
  have hbegun := takeWhile_cons_of_le (Nat.zero_le place) (feedEndsFrom 0 (bytesOf text))
  simp only [LineTable.position, size_ofText, min_maxOffset hsize, hplace, starts_ofText, hbegun,
    List.length_cons, Nat.add_sub_cancel, List.getLastD_cons]

theorem position_isAt (offset : Nat) :
    ((LineTable.ofText text).position offset).IsAt (bytesOf text)
      (min offset (bytesOf text).length) := by
  generalize hplace : min offset (bytesOf text).length = place
  have hlast := isGreatest_getLastD (pairwise_starts text) (Nat.zero_le place)
  rw [position_of_feedEnds hsize hplace]
  constructor
  · rw [length_takeWhile_feedEndsFrom, Nat.sub_zero]
  · simp only [← beginsLine_iff] at hlast
    exact ⟨_, hlast, Nat.add_sub_of_le hlast.1.2⟩

/-- Looking an offset up by halving does not fail, and finds its position. -/
theorem position?_eq (offset : Nat) :
    (LineTable.ofText text).position? offset = some ((LineTable.ofText text).position offset) := by
  have hsorted := pairwise_starts text
  generalize hplace : min offset (bytesOf text).length = place
  rw [position_of_feedEnds hsize hplace, LineTable.position?, starts_ofText, size_ofText,
    min_maxOffset hsize, hplace]
  -- The row begins with zero, which is not beyond any place, so halving finds a line.
  have hbegun := takeWhile_cons_of_le (Nat.zero_le place) (feedEndsFrom 0 (bytesOf text))
  have hle := (isGreatest_getLastD hsorted (Nat.zero_le place)).1.2
  rw [bisect?_eq_some hsorted (Nat.zero_le _) (List.takeWhile_prefix _).length_le (le_refl _),
    hbegun]
  simp only [List.length_cons, Option.bind_eq_bind, Option.bind_some, Nat.add_sub_cancel,
    getElem?_length_takeWhile, if_pos hle]

theorem position_isBefore_of_lt {offset other : Nat} (hlt : offset < other)
    (hother : other ≤ (bytesOf text).length) :
    ((LineTable.ofText text).position offset).IsBefore
      ((LineTable.ofText text).position other) := by
  rw [← utf8Length_eq] at hsize hother
  exact position_isBefore hsize hlt hother

/-- Different offsets within the text have different positions, since one of them is greater. -/
theorem position_injOn :
    Set.InjOn (LineTable.ofText text).position (Set.Iic (bytesOf text).length) := by
  intro offset hoffset other hother hsame
  rcases Nat.lt_trichotomy offset other with hlt | heq | hgt
  · exact absurd hsame (position_isBefore_of_lt hsize hlt hother).ne
  · exact heq
  · exact absurd hsame.symm (position_isBefore_of_lt hsize hgt hoffset).ne

theorem line_lt_lineCount (offset : Nat) :
    ((LineTable.ofText text).position offset).line < (LineTable.ofText text).lineCount := by
  rw [position_of_feedEnds hsize rfl, LineTable.lineCount, starts_ofText, List.length_cons]
  exact Nat.lt_succ_of_le (List.takeWhile_prefix _).length_le

end Table

/-- What a table of lines is good for. -/
structure LineTable.Locates (table : LineTable) (bytes : List UInt8) : Prop where
  /-- The position of an offset is that of the offset among the bytes, or that of their end. -/
  isAt : ∀ offset, (table.position offset).IsAt bytes (min offset bytes.length)
  /-- A greater offset within the bytes has a later position. -/
  isBefore : ∀ offset other, offset < other → other ≤ bytes.length →
    (table.position offset).IsBefore (table.position other)
  /-- Different offsets within the bytes have different positions. -/
  injOn : Set.InjOn table.position (Set.Iic bytes.length)
  /-- All offsets beyond the bytes have the position of their end. -/
  beyond : ∀ offset, bytes.length ≤ offset → table.position offset = table.position bytes.length
  /-- Every position is on one of the lines. -/
  line_lt : ∀ offset, (table.position offset).line < table.lineCount
  /-- Looking an offset up never asks for a missing line start, nor for one beyond the offset. -/
  found : ∀ offset, table.position? offset = some (table.position offset)
  /-- No number in the table or in a position is above the greatest offset. -/
  fits : table.size ≤ maxOffset ∧ (∀ start ∈ table.starts, start ≤ maxOffset) ∧
    ∀ offset, (table.position offset).line ≤ maxOffset ∧ (table.position offset).column ≤ maxOffset

/-- The table of a text that is not too long locates all offsets, however great, among the bytes of
    the text. -/
theorem offsets_located {text : String} (h : (bytesOf text).length < UInt32.size) :
    (LineTable.ofText text).Locates (bytesOf text) := by
  constructor
  case isAt => exact position_isAt h
  case isBefore => exact fun _ _ => position_isBefore_of_lt h
  case injOn => exact position_injOn h
  case beyond =>
    intro offset hbeyond
    rw [position_of_feedEnds h (min_eq_right hbeyond), position_of_feedEnds h (min_self _)]
  case line_lt => exact line_lt_lineCount h
  case found => exact position?_eq h
  case fits =>
    have hmax : (bytesOf text).length ≤ maxOffset := Nat.le_sub_one_of_lt h
    refine ⟨(size_ofText text).trans_le hmax, fun start hstart => ?_, fun offset => ?_⟩
    · exact (le_of_mem_starts hstart).trans hmax
    · have hle := (position_isAt h offset).le
      omega

/-- A text with an empty line, a carriage return, and characters of two and of three bytes. -/
def mixedLines : String := "ä\r\n\n€b"

theorem offsets_located_mixedLines :
    (bytesOf mixedLines).length < UInt32.size ∧
      (LineTable.ofText mixedLines).Locates (bytesOf mixedLines) := by
  have hlength : (bytesOf mixedLines).length < UInt32.size := by
    decide +kernel
  exact ⟨hlength, offsets_located hlength⟩

example : [1, 3, 4, 7, 2 ^ 40].map (LineTable.ofText mixedLines).position =
    [⟨0, 1⟩, ⟨0, 3⟩, ⟨1, 0⟩, ⟨2, 2⟩, ⟨2, 4⟩] := by
  decide

end Text

end PackageSymbols

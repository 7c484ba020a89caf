import Mathlib.Data.List.Pairwise
import PackageSymbols.Proofs.Lines
import PackageSymbols.Proofs.Markup.Building

/-!
# Places of Tags

Where an element stands is looked up before its tag is read, so it has to be shown
that the offset at that time is the one of the `<`. What came before may be any
mixture of text and markup, with `>` in quotes and `<` in comments, and the grammar
of markup takes care of it: the text before a tag consists of whole pieces, and the
offset of a tag is the length of that text. `IsBeforeTag` says this with the number
of the tag, and with no offset and no scanner in it.

Between the pieces and the tree nothing is reordered. The pieces that open an
element, the events that do and the elements of the tree in document order are in
one row each, and the positions in these rows are the same ones. The step from events
to elements is the same behind any reader, so what is known of positions needs no more
of the reader than that it tells where tags are. `PlacesTags` asks for this.

## Main definitions

* `Piece.opens`: Whether a piece is a start tag or a tag of an empty element.
* `IsBeforeTag`: The text before the tag of a given number.
* `tagOffsets`: The offsets at which the reader finds tags that open.
* `Event.position?`: The position in a tag that opens.
* `PlacesTags`: What is asked of a reader for positions to be right.

## Theorems

* `IsCut.of_append`: A row of pieces can be split, and the text with it.
* `tagOffsets_getElem?_eq_some_iff`: The offset of a tag is the length of the text
  before it.
* `pairwise_tagOffsets`: The offsets are in order.
* `positions_of_parseWith`: The positions in a tree are those of the events.
* `placesTags_pieceReader`: The reader of pieces is a reader as it is asked for.
* `exists_isBeforeTag`, `exists_getElem?_descendants`: The elements of a tree and
  the tags of its text belong together.
* `pairwise_positions`: Elements have later positions the later they come.
-/

namespace PackageSymbols

namespace Markup

open Text

/-- Whether a piece is a tag that opens an element. -/
def Piece.opens : Piece → Bool
  | .startTag _ => true
  | .emptyTag _ => true
  | _ => false

/-- Whether a text is all that comes before the tag of an element, given how many such tags there
    are in it: it consists of whole pieces, and markup that opens an element follows. -/
def IsBeforeTag (cs : List Char) (number : Nat) (before : List Char) : Prop :=
  ∃ ps content tag rest, cs = before ++ '<' :: (content ++ '>' :: rest) ∧ ConsistsOf before ps ∧
    IsMarkup content tag ∧ tag.opens = true ∧ ps.countP Piece.opens = number

/-- The offsets of the tags that open an element. -/
def tagOffsets (cs : List Char) : List Nat :=
  ((pieces 0 cs).items.filter (·.value.opens)).map (·.offset)

/-- The position in a tag, if it opens an element. -/
def Event.position? : Event → Option Position
  | .start head => some head.position
  | .empty head => some head.position
  | _ => none

/-- Whether a reader tells where tags are: if it reads a text without a fault, the events that open
    an element have the places of the tags that do, in their order. -/
def PlacesTags (read : EventReader) : Prop :=
  ∀ (place : Nat → Position) (cs : List Char), (read place cs).fault = none →
    ∀ (number : Nat) (position : Position),
      ((read place cs).items.filterMap (·.value.position?))[number]? = some position ↔
        ∃ before, IsBeforeTag cs number before ∧ place (utf8Length before) = position

section Cutting

theorem EndsText.of_append {xs ys : List Char} (h : EndsText (xs ++ ys)) : EndsText xs :=
  fun c rest hxs => h c (rest ++ ys) (by rw [hxs, List.cons_append])

/-- What is cut into two rows of pieces is cut between them. -/
theorem IsCut.of_append {cs : List Char} {ps qs : List Piece} (h : IsCut cs (ps ++ qs)) :
    ∃ before rest, cs = before ++ rest ∧ IsCut before ps ∧ IsCut rest qs := by
  induction ps generalizing cs with
  | nil => exact ⟨[], cs, rfl, .done, h⟩
  | cons piece ps ih =>
      cases h with
      | @text run behind _ hne hrun hends hbehind =>
          rcases ih hbehind with ⟨before, rest, rfl, hbefore, hrest⟩
          exact ⟨run ++ before, rest, (List.append_assoc run before rest).symm,
            .text hne hrun hends.of_append hbefore, hrest⟩
      | @markup kind cs content behind _ _ hkind hsplit hpiece hbehind =>
          have hcs := kind.split_eq_append hsplit
          subst hcs
          -- The markup ends where it did, although less of the text follows now.
          rcases ih hbehind with ⟨before, rest, rfl, hbefore, hrest⟩
          refine ⟨'<' :: (content ++ '>' :: before), rest, ?_,
            .behind_markup hkind hsplit hpiece hbefore, hrest⟩
          rw [List.cons_append, List.append_assoc, List.cons_append]

/-- A tag that is cut off first is markup. -/
theorem IsCut.exists_isMarkup {cs : List Char} {tag : Piece} {ps : List Piece}
    (h : IsCut cs (tag :: ps)) (htag : tag.opens = true) :
    ∃ content rest, cs = '<' :: (content ++ '>' :: rest) ∧ IsMarkup content tag := by
  cases isCut_iff.mp h with
  | text => exact absurd htag Bool.false_ne_true
  | markup hmarkup _ => exact ⟨_, _, rfl, hmarkup⟩

end Cutting

section Offsets

theorem endsText_cons (rest : List Char) : EndsText ('<' :: rest) :=
  fun _ _ he => (List.cons.inj he).1.symm

theorem tagOffsets_of_isBeforeTag {cs before : List Char} {number : Nat}
    (h : IsBeforeTag cs number before) : (tagOffsets cs)[number]? = some (utf8Length before) := by
  rcases h with ⟨ps, content, tag, rest, rfl, hbefore, htag, hopens, hcount⟩
  rcases htag.exists_split rest with ⟨kind, hkind, hsplit, hpiece⟩
  rcases pieces_append (isCut_iff.mpr hbefore) (endsText_cons (content ++ '>' :: rest)) 0 with
    ⟨items, hitems, hpieces⟩
  have hlength : ((items.filter (·.value.opens)).map (·.offset)).length = number := by
    rw [List.length_map, ← List.countP_eq_length_filter, ← hcount, ← hitems, List.countP_map]
    rfl
  rw [tagOffsets, hpieces, pieces_markup hkind hsplit hpiece, Reading.behind, Reading.cons,
    List.filter_append, List.filter_cons_of_pos (by exact hopens), List.map_append,
    List.getElem?_append_right hlength.le, hlength, Nat.sub_self, List.map_cons,
    List.getElem?_cons_zero, Nat.zero_add]

theorem exists_of_getElem?_filter {α : Type} {p : α → Bool} {as : List α} {number : Nat} {a : α}
    (h : (as.filter p)[number]? = some a) :
    ∃ front rest, as = front ++ a :: rest ∧ front.countP p = number ∧ p a = true := by
  -- Only what passes is counted, so the place changes at some elements and at others does not.
  induction as generalizing number with
  | nil => exact absurd h (by simp only [List.filter_nil, List.getElem?_nil, reduceCtorEq,
      not_false_eq_true])
  | cons b as ih =>
      by_cases hb : p b = true
      · rw [List.filter_cons_of_pos hb] at h
        cases number with
        | zero =>
            rw [List.getElem?_cons_zero, Option.some.injEq] at h
            exact ⟨[], as, congrArg (· :: as) h, rfl, h ▸ hb⟩
        | succ number =>
            rw [List.getElem?_cons_succ] at h
            rcases ih h with ⟨front, rest, rfl, hcount, ha⟩
            exact ⟨b :: front, rest, rfl, by rw [List.countP_cons_of_pos hb, hcount], ha⟩
      · rw [List.filter_cons_of_neg hb] at h
        rcases ih h with ⟨front, rest, rfl, hcount, ha⟩
        exact ⟨b :: front, rest, rfl, by rw [List.countP_cons_of_neg hb, hcount], ha⟩

/-- The offset of a tag is the length of the text before it. -/
theorem tagOffsets_getElem?_eq_some_iff {cs : List Char} (hfault : (pieces 0 cs).fault = none)
    {number offset : Nat} :
    (tagOffsets cs)[number]? = some offset ↔
      ∃ before, IsBeforeTag cs number before ∧ utf8Length before = offset := by
  constructor
  · intro h
    have hitem := h
    rw [tagOffsets, List.getElem?_map, Option.map_eq_some_iff] at hitem
    rcases hitem with ⟨item, hitem, _⟩
    rcases exists_of_getElem?_filter hitem with ⟨front, behind, hitems, hcount, hopens⟩
    have hcut := isCut_of_pieces 0 cs hfault
    -- The pieces before the tag are those of a text before it.
    rw [hitems, List.map_append, List.map_cons] at hcut
    rcases hcut.of_append with ⟨before, after, rfl, hbefore, hafter⟩
    rcases hafter.exists_isMarkup hopens with ⟨content, rest, rfl, hmarkup⟩
    have htag : IsBeforeTag (before ++ '<' :: (content ++ '>' :: rest)) number before :=
      ⟨_, content, _, rest, rfl, isCut_iff.mp hbefore, hmarkup, hopens,
        by rw [List.countP_map]; exact hcount⟩
    -- And its length is the only offset that there can be.
    rw [tagOffsets_of_isBeforeTag htag, Option.some.injEq] at h
    exact ⟨before, htag, h⟩
  · rintro ⟨before, htag, rfl⟩
    exact tagOffsets_of_isBeforeTag htag

/-- The text before a tag is in front of the whole. -/
theorem IsBeforeTag.exists_eq_append {cs before : List Char} {number : Nat}
    (h : IsBeforeTag cs number before) : ∃ rest, cs = before ++ rest := by
  rcases h with ⟨_, _, _, _, rfl, _⟩
  exact ⟨_, rfl⟩

theorem IsBeforeTag.utf8Length_le {cs before : List Char} {number : Nat}
    (h : IsBeforeTag cs number before) : utf8Length before ≤ utf8Length cs := by
  rcases h.exists_eq_append with ⟨rest, rfl⟩
  rw [utf8Length_append]
  exact Nat.le_add_right _ _

theorem le_of_mem_tagOffsets {cs : List Char} (hfault : (pieces 0 cs).fault = none) {offset : Nat}
    (h : offset ∈ tagOffsets cs) : offset ≤ utf8Length cs := by
  rcases List.mem_iff_getElem?.mp h with ⟨number, hnumber⟩
  rcases (tagOffsets_getElem?_eq_some_iff hfault).mp hnumber with ⟨before, hbefore, rfl⟩
  exact hbefore.utf8Length_le

/-- Pieces begin one behind the other. -/
theorem offsets_pieces (offset : Nat) (cs : List Char) :
    (∀ item ∈ (pieces offset cs).items, offset ≤ item.offset) ∧
      (pieces offset cs).items.Pairwise (fun item other => item.offset < other.offset) := by
  fun_induction pieces offset cs with
  | case1 => exact ⟨List.forall_mem_nil _, .nil⟩
  | case2 => exact ⟨List.forall_mem_nil _, .nil⟩
  | case3 => exact ⟨List.forall_mem_nil _, .nil⟩
  | case4 => exact ⟨List.forall_mem_nil _, .nil⟩
  | case5 offset rest kind hkind content after hsplit piece hpiece ih =>
      -- Both ends of markup take a byte, whatever its content.
      have hbehind : ∀ item ∈ (pieces (offset + utf8Length content + 2) after).items,
          offset < item.offset := fun item hitem => by
        have := ih.1 item hitem
        omega
      exact ⟨List.forall_mem_cons.mpr ⟨le_rfl, fun item hitem => (hbehind item hitem).le⟩,
        List.pairwise_cons.mpr ⟨hbehind, ih.2⟩⟩
  | case6 offset c rest hc run ih =>
      -- A run of text has a character at least.
      have hbehind : ∀ item ∈ (pieces (offset + utf8Length run)
          (rest.dropWhile (· != '<'))).items, offset < item.offset := fun item hitem => by
        have := ih.1 item hitem
        have hpos := c.utf8Size_pos
        have hrun : utf8Length run = c.utf8Size + utf8Length (rest.takeWhile (· != '<')) := rfl
        omega
      exact ⟨List.forall_mem_cons.mpr ⟨le_rfl, fun item hitem => (hbehind item hitem).le⟩,
        List.pairwise_cons.mpr ⟨hbehind, ih.2⟩⟩

theorem pairwise_tagOffsets (cs : List Char) : (tagOffsets cs).Pairwise (· < ·) :=
  List.pairwise_map.mpr ((offsets_pieces 0 cs).2.filter _)

/-- The text before a tag is shorter than that before a later one. -/
theorem IsBeforeTag.utf8Length_lt {cs before later : List Char} {number other : Nat}
    (h : IsBeforeTag cs number before) (hother : IsBeforeTag cs other later)
    (hlt : number < other) : utf8Length before < utf8Length later := by
  rcases List.getElem?_eq_some_iff.mp (tagOffsets_of_isBeforeTag h) with ⟨hnumber, hfirst⟩
  rcases List.getElem?_eq_some_iff.mp (tagOffsets_of_isBeforeTag hother) with ⟨hlater, hsecond⟩
  rw [← hfirst, ← hsecond]
  exact List.pairwise_iff_getElem.mp (pairwise_tagOffsets cs) number other hnumber hlater hlt

end Offsets

section Rows

variable {place : Nat → Position}

/-- The event of a piece opens an element if the piece does, and has its place. -/
theorem position?_of_readPiece {opened after : List OpenTag} {piece : Located Piece}
    {event : Option Event} (h : readPiece place opened piece = .ok (event, after)) :
    event.bind Event.position? =
      if piece.value.opens then some (place piece.offset) else none := by
  rcases piece with ⟨offset, piece⟩
  cases piece with
  | aside =>
      cases h
      rfl
  | characterData chars =>
      cases h
      rfl
  | text chars =>
      cases hchars : resolve chars with
      | error cause => simp only [readPiece, hchars, reduceCtorEq] at h
      | ok content =>
          simp only [readPiece, hchars] at h
          cases h
          rfl
  | startTag content =>
      cases hread : readTag (scopeInside opened) offset (place offset) (Tag.ofContent content) with
      | error fault =>
          simp only [readPiece, hread] at h
          cases h
      | ok found =>
          simp only [readPiece, hread] at h
          cases h
          exact congrArg some (position_of_readTag hread)
  | emptyTag content =>
      cases hread : readTag (scopeInside opened) offset (place offset) (Tag.ofContent content) with
      | error fault =>
          simp only [readPiece, hread] at h
          cases h
      | ok found =>
          simp only [readPiece, hread] at h
          cases h
          exact congrArg some (position_of_readTag hread)
  | endTag name =>
      cases opened with
      | nil => simp only [readPiece, reduceCtorEq] at h
      | cons innermost rest =>
          by_cases hname : name = innermost.name
          · simp only [readPiece, if_pos hname] at h
            cases h
            rfl
          · simp only [readPiece, if_neg hname, reduceCtorEq] at h

/-- The events that open an element are those of the pieces that do, at their places. -/
theorem positions_eventsFrom {fault : Option Fault} {opened : List OpenTag}
    {items : List (Located Piece)} (h : (eventsFrom place fault opened items).fault = none) :
    fault = none ∧ (eventsFrom place fault opened items).items.filterMap (·.value.position?) =
      (items.filter (·.value.opens)).map (fun item => place item.offset) := by
  induction items generalizing opened with
  | nil => exact ⟨h, rfl⟩
  | cons piece items ih =>
      rw [eventsFrom] at h ⊢
      cases hpiece : readPiece place opened piece with
      | error cause =>
          rw [hpiece] at h
          exact absurd h (Option.some_ne_none cause)
      | ok found =>
          rcases found with ⟨event, after⟩
          have hposition := position?_of_readPiece hpiece
          rw [List.filter_cons]
          -- The piece adds to both rows or to neither, and to both the same position.
          cases event with
          | none =>
              simp only [hpiece] at h ⊢
              by_cases hopens : piece.value.opens = true
              · rw [if_pos hopens] at hposition
                cases hposition
              · rw [if_neg hopens]
                exact ih h
          | some event =>
              simp only [hpiece] at h ⊢
              refine ⟨(ih h).1, ?_⟩
              rw [Reading.cons, List.filterMap_cons, (ih h).2]
              by_cases hopens : piece.value.opens = true
              · rw [if_pos hopens] at hposition ⊢
                rw [Option.bind_some] at hposition
                simp only [hposition, List.map_cons]
              · rw [if_neg hopens] at hposition ⊢
                rw [Option.bind_some] at hposition
                simp only [hposition]

/-- The elements of nodes come in the order in which they are opened. -/
theorem Spells.positions {events : List (Located Event)} {nodes : List Node}
    (h : Spells events nodes) :
    events.filterMap (·.value.position?) = (Node.elementsOf nodes).map (·.head.position) := by
  induction h with
  | done => rfl
  | text offset content _ ih => exact ih
  | empty offset head _ ih => exact congrArg (head.position :: ·) ih
  | element first last head _ _ ihInner ih =>
      have hstart : (Event.start head).position? = some head.position := rfl
      have hfinish : Event.finish.position? = none := rfl
      simp only [List.filterMap_cons, List.filterMap_append, hstart, hfinish, ihInner, ih,
        Node.elementsOf, Node.elements, List.cons_append, List.map_cons, List.map_append]

theorem positions_of_isBlank {events : List (Located Event)}
    (h : ∀ event ∈ events, event.value.isBlank = true) :
    events.filterMap (·.value.position?) = [] := by
  rw [List.filterMap_eq_nil_iff]
  intro event hevent
  have hblank := h event hevent
  rcases event with ⟨offset, event⟩
  cases event with
  | text content => rfl
  | start head => exact absurd hblank Bool.false_ne_true
  | empty head => exact absurd hblank Bool.false_ne_true
  | finish => exact absurd hblank Bool.false_ne_true

/-- The positions in a tree, in document order, are those of the events that open an element. -/
theorem positions_of_parseWith {read : EventReader} {text : String} {root : Element}
    (h : parseWith read text = .ok root) :
    (eventsWith read text).fault = none ∧ root.descendants.map (·.head.position) =
      (eventsWith read text).items.filterMap (·.value.position?) := by
  rcases parseWith_eq_ok_iff_spells.mp h with
    ⟨hfault, before, element, behind, hitems, hblanks, hspells⟩
  rw [List.forall_mem_append] at hblanks
  refine ⟨hfault, ?_⟩
  have hroot := hspells.positions
  rw [Node.elementsOf, Node.elementsOf, List.append_nil] at hroot
  -- Around the root there are only blanks, and they have no position.
  rw [Element.descendants, ← hroot, hitems, List.filterMap_append, List.filterMap_append,
    positions_of_isBlank hblanks.1, positions_of_isBlank hblanks.2, List.nil_append,
    List.append_nil]

/-- The positions in a tree, in document order, are those of the tags that open an element. -/
theorem positions_of_parse {text : String} {root : Element} (h : parse text = .ok root) :
    (pieces 0 (dropMark text.toList)).fault = none ∧
      root.descendants.map (·.head.position) =
        (tagOffsets (dropMark text.toList)).map (LineTable.ofText text).position := by
  rw [← parseWith_pieceReader] at h
  rcases positions_of_parseWith h with ⟨hfault, hroot⟩
  rcases positions_eventsFrom hfault with ⟨hpieces, hpositions⟩
  refine ⟨hpieces, ?_⟩
  rw [tagOffsets, List.map_map, hroot]
  exact hpositions

/-- The reader of pieces tells where tags are. -/
theorem placesTags_pieceReader : PlacesTags pieceReader := by
  intro place cs hfault number position
  rcases positions_eventsFrom hfault with ⟨hpieces, hpositions⟩
  have hrow : (pieceReader place cs).items.filterMap (·.value.position?) =
      (tagOffsets cs).map place := by
    rw [tagOffsets, List.map_map]
    exact hpositions
  rw [hrow, List.getElem?_map, Option.map_eq_some_iff]
  simp only [tagOffsets_getElem?_eq_some_iff hpieces]
  constructor
  · rintro ⟨_, ⟨before, hbefore, rfl⟩, hposition⟩
    exact ⟨before, hbefore, hposition⟩
  · rintro ⟨before, hbefore, hposition⟩
    exact ⟨_, ⟨before, hbefore, rfl⟩, hposition⟩

end Rows

section Documents

variable {read : EventReader} {text : String} {root : Element}

theorem dropMark_of_head? {cs : List Char} (h : cs.head? ≠ some byteOrderMark) :
    dropMark cs = cs := by
  cases cs with
  | nil => rfl
  | cons c cs => rw [dropMark, if_neg fun hc => h (congrArg some hc)]

variable (hread : PlacesTags read) (hmark : text.toList.head? ≠ some byteOrderMark)
  (hsize : utf8Length text.toList < UInt32.size) (hroot : parseWith read text = .ok root)

include hread hmark hroot

/-- The positions in a tree are those of the texts before the tags. -/
theorem positions_getElem?_eq_some_iff {number : Nat} {position : Position} :
    (root.descendants.map (·.head.position))[number]? = some position ↔
      ∃ before, IsBeforeTag text.toList number before ∧
        (LineTable.ofText text).position (utf8Length before) = position := by
  rcases positions_of_parseWith hroot with ⟨hfault, hpositions⟩
  rw [eventsWith, dropMark_of_head? hmark] at hfault hpositions
  rw [hpositions]
  exact hread _ _ hfault number position

include hsize

/-- The tag of an element is behind a text that tells its position. -/
theorem exists_isBeforeTag {number : Nat} {e : Element} (h : root.descendants[number]? = some e) :
    ∃ before, IsBeforeTag text.toList number before ∧
      e.head.position = Position.behind before := by
  have hplace : (root.descendants.map (·.head.position))[number]? = some e.head.position := by
    rw [List.getElem?_map, h, Option.map_some]
  rcases (positions_getElem?_eq_some_iff hread hmark hroot).mp hplace with
    ⟨before, hbefore, hposition⟩
  rcases hbefore.exists_eq_append with ⟨rest, htext⟩
  exact ⟨before, hbefore, hposition.symm.trans (position_utf8Length hsize htext)⟩

/-- Every tag that opens an element is that of one. -/
theorem exists_getElem?_descendants {number : Nat} {before : List Char}
    (h : IsBeforeTag text.toList number before) :
    ∃ e, root.descendants[number]? = some e ∧ e.head.position = Position.behind before := by
  have hplace := (positions_getElem?_eq_some_iff hread hmark hroot).mpr ⟨before, h, rfl⟩
  rw [List.getElem?_map, Option.map_eq_some_iff] at hplace
  rcases hplace with ⟨e, he, hposition⟩
  rcases h.exists_eq_append with ⟨rest, htext⟩
  exact ⟨e, he, hposition.trans (position_utf8Length hsize htext)⟩

/-- Elements have later positions the later they come. -/
theorem pairwise_positions :
    (root.descendants.map (·.head.position)).Pairwise Position.IsBefore := by
  rw [List.pairwise_iff_getElem]
  intro number other hnumber hother hlt
  rcases (positions_getElem?_eq_some_iff hread hmark hroot).mp
    (List.getElem?_eq_getElem hnumber) with ⟨before, hbefore, hposition⟩
  rcases (positions_getElem?_eq_some_iff hread hmark hroot).mp
    (List.getElem?_eq_getElem hother) with ⟨later, hlater, hnext⟩
  -- What comes before a later tag is longer, and both texts are in front of the whole.
  rw [← hposition, ← hnext]
  exact position_isBefore hsize (hbefore.utf8Length_lt hlater hlt) hlater.utf8Length_le

end Documents

end Markup

end PackageSymbols

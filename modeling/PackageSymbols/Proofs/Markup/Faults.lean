import Mathlib.Logic.Relation
import PackageSymbols.Proofs.Markup.Declarations
import PackageSymbols.Proofs.Markup.Places

/-!
# Where Faults Are Reported

A document that is no markup is read up to some place and not beyond. What comes
before this place consists of pieces that are read and handled, one after the
other, and with what follows it one cannot go on: it does not begin with a piece,
or the piece has a fault where it stands, or nothing follows and the tree is not
complete. `IsLast` says this by steps from the beginning of the text, with the
grammar of markup for what a piece is.

A fault is reported at this place or behind it, within the text, unless it is that
of a declaration. What makes this one induction over the steps and not one for each
kind of fault is that a step leaves the answer of the reader as it is
(`Stage.Next.read_eq`). So the fault that is reported is the one that is found
first at the last place, and there is only a single piece left to look at.

## Main definitions

* `IsFirstPiece`: A piece, as it is written at the beginning of a text.
* `Stage`, `Stage.Next`: What has been read and what is left, and the step over one
  piece.
* `IsReached`, `IsLast`: The stages that a reader comes to, and the last of them.

## Theorems

* `pieces_cases`: A text begins with a piece, or a fault is reported in its
  beginning.
* `Stage.Next.read_eq`: A step leaves the answer of the reader as it is.
* `Stage.exists_last`: A reader does not go on forever.
* `error_position`: Errors are behind what was read, but those of declarations are
  not.
-/

namespace PackageSymbols

namespace Markup

open Text

/-- A piece at the beginning of a text: how it is written, and what follows. -/
inductive IsFirstPiece : List Char → Piece → List Char → Prop where
  /-- A run of text, up to markup or the end. -/
  | text {run rest : List Char} (hne : run ≠ []) (hrun : ∀ c ∈ run, c ≠ '<')
      (hends : EndsText rest) : IsFirstPiece run (.text run) rest
  /-- Markup. -/
  | markup {content rest : List Char} {piece : Piece} (h : IsMarkup content piece) :
      IsFirstPiece ('<' :: (content ++ ['>'])) piece rest

/-- A stage of reading a document. -/
structure Stage where
  /-- What has been read. -/
  before : List Char
  /-- What is left. -/
  rest : List Char
  /-- What is known from what has been read. -/
  progress : Progress

/-- Whether a piece is read and handled from one stage to another. -/
inductive Stage.Next (place : Nat → Position) : Stage → Stage → Prop where
  /-- The piece that follows. -/
  | piece {before front rest : List Char} {piece : Piece} {s next : Progress}
      (hfront : IsFirstPiece front piece rest)
      (h : s.handle place ⟨utf8Length before, piece⟩ = .ok next) :
      Stage.Next place ⟨before, front ++ rest, s⟩ ⟨before ++ front, rest, next⟩

/-- Whether a stage is reached in a text by reading and handling piece after piece. -/
def IsReached (text : String) (stage : Stage) : Prop :=
  Relation.ReflTransGen (Stage.Next (LineTable.ofText text).position)
    ⟨[], text.toList, .start⟩ stage

/-- Whether a stage is the last that is reached in a text. -/
def IsLast (text : String) (last : Stage) : Prop :=
  IsReached text last ∧ ∀ next, ¬Stage.Next (LineTable.ofText text).position last next

section Pieces

/-- The reader cuts the piece off with which a text begins. -/
theorem pieces_of_isFirstPiece {front rest : List Char} {piece : Piece}
    (h : IsFirstPiece front piece rest) (offset : Nat) :
    pieces offset (front ++ rest) =
      .cons ⟨offset, piece⟩ (pieces (offset + utf8Length front) rest) := by
  cases h with
  | text hne hrun hends => exact pieces_text hne hrun hends offset
  | @markup content _ _ hmarkup =>
      rcases hmarkup.exists_split rest with ⟨kind, hkind, hsplit, hpiece⟩
      have hopen : '<'.utf8Size = 1 := rfl
      have hclose : '>'.utf8Size = 1 := rfl
      have hlength : offset + utf8Length ('<' :: (content ++ ['>'])) =
          offset + utf8Length content + 2 := by
        rw [utf8Length_cons, utf8Length_append, utf8Length_cons, utf8Length_nil, hopen, hclose]
        omega
      rw [hlength, List.cons_append, List.append_assoc, List.singleton_append,
        pieces_markup hkind hsplit hpiece]

/-- A text is empty, or a fault in its beginning is reported, or it begins with a piece. -/
theorem pieces_cases (offset : Nat) (cs : List Char) :
    cs = [] ∨
    (∃ fault, pieces offset cs = .fail fault ∧
      fault.IsWithin offset (offset + utf8Length cs)) ∨
    ∃ front piece rest, cs = front ++ rest ∧ IsFirstPiece front piece rest := by
  fun_cases pieces offset cs with
  | case1 => exact Or.inl rfl
  | case2 rest hkind =>
      exact Or.inr (Or.inl ⟨_, rfl, isWithin_of_clear rfl (Nat.le_add_right _ _)⟩)
  | case3 rest kind hkind hsplit =>
      exact Or.inr (Or.inl ⟨_, rfl, isWithin_of_clear rfl (Nat.le_add_right _ _)⟩)
  | case4 rest kind hkind content after hsplit cause hpiece =>
      refine Or.inr (Or.inl ⟨_, rfl, (isWithin_of_piece hpiece offset).mono le_rfl ?_⟩)
      have hopen : '<'.utf8Size = 1 := rfl
      rw [← kind.split_eq_append hsplit, utf8Length_cons, utf8Length_append, hopen]
      omega
  | case5 rest kind hkind content after hsplit piece hpiece =>
      have hrest := kind.split_eq_append hsplit
      subst hrest
      rcases Kind.split_eq_some_iff.mp hsplit with ⟨_, hencloses⟩
      have hmarkup : IsMarkup content piece :=
        isMarkup_iff.mpr ⟨kind, (Kind.ofStart_closed _ _ _).trans hkind, hencloses, hpiece⟩
      refine Or.inr (Or.inr ⟨_, piece, after, ?_, .markup hmarkup⟩)
      rw [List.cons_append, List.append_assoc, List.singleton_append]
  | case6 c rest hc run =>
      rcases run_append_dropWhile hc rest with ⟨hcs, hrun⟩
      exact Or.inr (Or.inr ⟨run, .text run, _, hcs,
        .text (List.cons_ne_nil _ _) hrun (endsText_dropWhile rest)⟩)

end Pieces

namespace Stage

variable {place : Nat → Position} {stage next : Stage}

/-- The answer of a reader that goes on from a stage, in a document that ends at `stop`. -/
def read (place : Nat → Position) (stop : Nat) (stage : Stage) : Except Fault Element :=
  stage.progress.read place stop (pieces (utf8Length stage.before) stage.rest)

/-- A step leaves the answer of the reader as it is. -/
theorem Next.read_eq (h : Next place stage next) (stop : Nat) :
    next.read place stop = stage.read place stop := by
  cases h with
  | piece hfront hhandle =>
      rw [read, read, pieces_of_isFirstPiece hfront, Progress.read_cons_of_ok hhandle,
        utf8Length_append]

theorem Next.text_eq (h : Next place stage next) :
    next.before ++ next.rest = stage.before ++ stage.rest := by
  cases h with
  | piece => exact List.append_assoc _ _ _

theorem Next.length_lt (h : Next place stage next) : next.rest.length < stage.rest.length := by
  cases h with
  | piece hfront =>
      rw [List.length_append]
      cases hfront with
      | text hne => exact Nat.lt_add_of_pos_left (List.length_pos_iff.mpr hne)
      | markup => exact Nat.lt_add_of_pos_left (Nat.succ_pos _)

/-- A run leaves the text and the answer as they are, and reads on in the text. -/
theorem of_reflTransGen (h : Relation.ReflTransGen (Next place) stage next) :
    next.before ++ next.rest = stage.before ++ stage.rest ∧
      utf8Length stage.before ≤ utf8Length next.before ∧
      ∀ stop, next.read place stop = stage.read place stop := by
  induction h with
  | refl => exact ⟨rfl, le_rfl, fun _ => rfl⟩
  | tail _ hnext ih =>
      refine ⟨hnext.text_eq.trans ih.1, ih.2.1.trans ?_, fun stop =>
        (hnext.read_eq stop).trans (ih.2.2 stop)⟩
      cases hnext with
      | piece =>
          rw [utf8Length_append]
          exact Nat.le_add_right _ _

/-- A reader does not go on forever. -/
theorem exists_last (place : Nat → Position) (stage : Stage) :
    ∃ last, Relation.ReflTransGen (Next place) stage last ∧ ∀ next, ¬Next place last next := by
  induction hlength : stage.rest.length using Nat.strong_induction_on generalizing stage with
  | h length ih =>
      by_cases hnext : ∃ next, Next place stage next
      · rcases hnext with ⟨next, hnext⟩
        rcases ih _ (hlength ▸ hnext.length_lt) next rfl with ⟨last, hlast, hstuck⟩
        exact ⟨last, .head hnext hlast, hstuck⟩
      · exact ⟨stage, .refl, not_exists.mp hnext⟩

/-- Where a reader cannot go on, the fault that it reports is there or behind. -/
theorem isWithin_of_read {fault : Fault} (hstuck : ∀ next, ¬Next place stage next)
    (h : stage.read place (utf8Length (stage.before ++ stage.rest)) = .error fault) :
    fault.IsWithin (utf8Length stage.before) (utf8Length (stage.before ++ stage.rest)) := by
  rcases stage with ⟨before, rest, s⟩
  rcases pieces_cases (utf8Length before) rest with rfl | ⟨other, hpieces, hwithin⟩ |
    ⟨front, piece, behind, rfl, hfront⟩
  · rw [List.append_nil] at h ⊢
    rw [read, pieces] at h
    exact close_isWithin h
  · rw [utf8Length_append]
    simp only [read, hpieces] at h
    exact Except.error.inj h ▸ hwithin
  · have hlast : utf8Length before ≤ utf8Length (before ++ (front ++ behind)) := by
      rw [utf8Length_append]
      exact Nat.le_add_right _ _
    simp only [read, pieces_of_isFirstPiece hfront] at h
    cases hhandle : s.handle place ⟨utf8Length before, piece⟩ with
    | ok next => exact absurd (.piece hfront hhandle) (hstuck _)
    | error other =>
        rw [Progress.read_cons_of_error hhandle] at h
        exact Except.error.inj h ▸ (handle_isWithin hhandle).mono le_rfl hlast

end Stage

section Documents

/-- A fault in a text is behind what was read up to the last stage. -/
theorem isWithin_of_last {place : Nat → Position} {cs : List Char} {last : Stage} {fault : Fault}
    (hrun : Relation.ReflTransGen (Stage.Next place) ⟨[], cs, .start⟩ last)
    (hstuck : ∀ next, ¬Stage.Next place last next)
    (h : Progress.start.read place (utf8Length cs) (pieces 0 cs) = .error fault) :
    fault.IsWithin (utf8Length last.before) (utf8Length cs) := by
  rcases Stage.of_reflTransGen hrun with ⟨htext, _, hread⟩
  rw [List.nil_append] at htext
  have hlocal : last.read place (utf8Length (last.before ++ last.rest)) = .error fault := by
    rw [hread, htext]
    exact h
  have hwithin := Stage.isWithin_of_read hstuck hlocal
  rw [htext] at hwithin
  exact hwithin

theorem offset_le_of_read {place : Nat → Position} {cs : List Char} {fault : Fault}
    (h : Progress.start.read place (utf8Length cs) (pieces 0 cs) = .error fault) :
    fault.offset ≤ utf8Length cs := by
  rcases Stage.exists_last place ⟨[], cs, .start⟩ with ⟨last, hrun, hstuck⟩
  exact (isWithin_of_last hrun hstuck h).offset_le

/-- A reader comes to a last stage. -/
theorem exists_isLast (text : String) : ∃ last, IsLast text last :=
  Stage.exists_last _ _

/-- An error is at the beginning of a document if it is about the declaration of a namespace, and
    else between the end of what was read and handled and the end of the text. -/
theorem error_position {text : String} {e : Error} (hmark : text.toList.head? ≠ some byteOrderMark)
    (h : parse text = .error e) :
    (∃ last, IsLast text last) ∧ ∀ last, IsLast text last →
      if e.cause.isDeclaration then e.position = ⟨0, 0⟩
      else ∃ offset, utf8Length last.before ≤ offset ∧ offset ≤ utf8Length text.toList ∧
        e.position = (LineTable.ofText text).position offset := by
  refine ⟨exists_isLast text, fun last hlast => ?_⟩
  rw [parse_eq_read, dropMark_of_head? hmark] at h
  cases hfault : Progress.start.read (LineTable.ofText text).position (utf8Length text.toList)
      (pieces 0 text.toList) with
  | ok root =>
      rw [hfault] at h
      cases h
  | error fault =>
      rw [hfault] at h
      cases h
      have hwithin := isWithin_of_last hlast.1 hlast.2 hfault
      rw [Fault.IsWithin] at hwithin
      split
      · next hdeclaration =>
          rw [if_pos hdeclaration] at hwithin
          exact (congrArg _ hwithin).trans (position_zero text)
      · next hdeclaration =>
          rw [if_neg hdeclaration] at hwithin
          exact ⟨fault.offset, hwithin.1, hwithin.2, rfl⟩

/-- A document with a prefix on its second line that nobody has declared. -/
def undeclared : String :=
  "<a>\n<p:b/></a>"

/-- The prefix is reported on its line. -/
theorem error_position_undeclared :
    undeclared.toList.head? ≠ some byteOrderMark ∧
      parse undeclared = .error ⟨⟨1, 0⟩, .undeclaredPrefix "p"⟩ ∧
      (∃ last, IsLast undeclared last) ∧ ∀ last, IsLast undeclared last →
        ∃ offset, utf8Length last.before ≤ offset ∧ offset ≤ utf8Length undeclared.toList ∧
        ⟨1, 0⟩ = (LineTable.ofText undeclared).position offset := by
  have hmark : undeclared.toList.head? ≠ some byteOrderMark := by decide
  have hparse : parse undeclared = .error ⟨⟨1, 0⟩, .undeclaredPrefix "p"⟩ :=
    parse_eq_of_map_events (by decide +kernel)
  exact ⟨hmark, hparse, error_position hmark hparse⟩

/-- A document with a declaration at fault on its second line. -/
def misdeclared : String :=
  "<a>\n<b xmlns:xml='u'/></a>"

/-- What is known of that document behind its first line. -/
def misdeclaredStage : Stage where
  before := "<a>\n".toList
  rest := '<' :: "b xmlns:xml='u'/></a>".toList
  progress :=
    { opened := [⟨['a'], Scope.initial⟩]
      builder := ⟨[⟨⟨none, "a", [], ⟨0, 0⟩⟩, [.text "\n"]⟩], none⟩ }

theorem isReached_misdeclaredStage : IsReached misdeclared misdeclaredStage := by
  have htag : IsMarkup ['a'] (tagPiece ['a']) :=
    .tag (by simp) (.plain (by decide) .done)
  have hread : readTag Scope.initial 0 ⟨0, 0⟩ (Tag.ofContent ['a']) =
      .ok (Scope.initial, ⟨none, "a", [], ⟨0, 0⟩⟩) := by
    decide +kernel
  have hrun : IsFirstPiece ['\n'] (.text ['\n']) misdeclaredStage.rest :=
    .text (by decide) (List.forall_mem_singleton.mpr (by decide)) (endsText_cons _)
  have hfirst : Stage.Next (LineTable.ofText misdeclared).position
      ⟨[], misdeclared.toList, .start⟩
      ⟨"<a>".toList, ['\n'] ++ misdeclaredStage.rest,
        ⟨[⟨['a'], Scope.initial⟩], ⟨[⟨⟨none, "a", [], ⟨0, 0⟩⟩, []⟩], none⟩⟩⟩ := by
    refine .piece (.markup htag) ?_
    have hpiece : tagPiece ['a'] = .startTag ['a'] := rfl
    simp only [Progress.handle, readPiece, hpiece, Progress.start, scopeInside, utf8Length_nil,
      position_zero, hread]
    rfl
  have hsecond : Stage.Next (LineTable.ofText misdeclared).position
      ⟨"<a>".toList, ['\n'] ++ misdeclaredStage.rest,
        ⟨[⟨['a'], Scope.initial⟩], ⟨[⟨⟨none, "a", [], ⟨0, 0⟩⟩, []⟩], none⟩⟩⟩
      misdeclaredStage := by
    refine .piece hrun ?_
    have hchars : resolve ['\n'] = .ok "\n" := resolve_escape "\n"
    simp only [Progress.handle, readPiece, hchars]
    rfl
  exact .tail (.single hfirst) hsecond

/-- Not all errors are behind what was read and handled. -/
theorem not_forall_error_position :
    ¬∀ (text : String) (e : Error), text.toList.head? ≠ some byteOrderMark →
      parse text = .error e → ∀ last, IsLast text last →
        ∃ offset, utf8Length last.before ≤ offset ∧ offset ≤ utf8Length text.toList ∧
          e.position = (LineTable.ofText text).position offset := by
  intro h
  have hmark : misdeclared.toList.head? ≠ some byteOrderMark := by decide
  have hparse : parse misdeclared = .error ⟨⟨0, 0⟩, .rebindsXml "u"⟩ :=
    parse_eq_of_map_events (by decide +kernel)
  -- Wherever the reader ends, it has come to the second line.
  rcases Stage.exists_last (LineTable.ofText misdeclared).position misdeclaredStage with
    ⟨last, hrun, hstuck⟩
  have hbehind : 4 ≤ utf8Length last.before := (Stage.of_reflTransGen hrun).2.1
  rcases h _ _ hmark hparse last ⟨isReached_misdeclaredStage.trans hrun, hstuck⟩ with
    ⟨offset, hfirst, hlast, hposition⟩
  have hline : ∀ offset ≤ 26, 4 ≤ offset →
      (LineTable.ofText misdeclared).position offset ≠ ⟨0, 0⟩ := by decide
  exact hline offset hlast (hbehind.trans hfirst) hposition.symm

end Documents

end Markup

end PackageSymbols

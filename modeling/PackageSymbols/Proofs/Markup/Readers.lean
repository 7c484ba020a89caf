import PackageSymbols.Markup.Document
import PackageSymbols.Proofs.Markup.Grammar

/-!
# Readers of Events

A document is read in two steps. A reader turns the text into events, and the tree is
built from these. Whoever builds the tree sees nothing of the text but the events, so
the reader is a part that can be exchanged, and `parseWith` takes it as a parameter.

What a result about documents needs of a reader is then a hypothesis about it. To read
back what was written takes a reader that keeps to the two grammars: a text that
consists of balanced pieces is read without a fault, as events that spell what the
pieces mean. `ReadsContent` asks for this and for no more; it is silent on texts that
are no content, on how the reader goes about it, and on positions. Which trees are
built from which events needs nothing of the reader at all, and `Building` shows it of
any.

The reader of documents is the one that cuts the text into pieces first, and it keeps
to the grammars.

## Main definitions

* `EventReader`: A reader of the events of a text.
* `pieceReader`: The reader that cuts a text into pieces.
* `eventsWith`, `parseWith`: The events and the root of a text by a given reader.
* `ReadsContent`: What is asked of a reader for content to be read.

## Theorems

* `parseWith_pieceReader`: Documents are read by the reader of pieces.
* `parseWith_eq_ok_iff_build`: The root of a text is built from its events.
* `readsContent_pieceReader`: The reader of pieces is a reader as it is asked for.
* `parseWith_of_isContent`: A text that is one element is read as this element.
-/

namespace PackageSymbols

namespace Markup

open Text

/-- A reader of the events of a text. It is told where offsets are, as tags have positions. -/
def EventReader :=
  (place : Nat → Position) → (cs : List Char) → Reading Fault (Located Event)

/-- The reader that cuts a text into pieces and reads these one by one. -/
def pieceReader : EventReader :=
  fun place cs => eventsOf place (pieces 0 cs)

/-- The events of a text by a given reader. -/
def eventsWith (read : EventReader) (text : String) : Reading Fault (Located Event) :=
  read (LineTable.ofText text).position (dropMark text.toList)

/-- The root element of a document by a given reader. -/
def parseWith (read : EventReader) (text : String) : Except Error Element :=
  let lines := LineTable.ofText text
  match build (utf8Length (dropMark text.toList)) (eventsWith read text) with
  | .ok root => .ok root
  | .error fault => .error { position := lines.position fault.offset, cause := fault.cause }

/-- Whether a reader keeps to the grammars of content: what consists of balanced pieces is read
    without a fault, as events that spell the nodes that the pieces mean. -/
def ReadsContent (read : EventReader) : Prop :=
  ∀ (place : Nat → Position) {cs : List Char} {ps : List Piece} {nodes : List Node},
    ConsistsOf cs ps → Means Scope.initial ps nodes →
      (read place cs).fault = none ∧
        ∃ found, Spells (read place cs).items found ∧ Node.unplacedAll found = nodes

/-- Documents are read by the reader of pieces. -/
theorem parseWith_pieceReader : parseWith pieceReader = parse :=
  rfl

/-- The reader of pieces keeps to the grammars. -/
theorem readsContent_pieceReader : ReadsContent pieceReader := by
  intro place cs ps nodes hconsists hmeans
  rcases pieces_of_isCut (isCut_iff.mpr hconsists) 0 with ⟨hfault, hitems⟩
  rcases eventsOver_of_means place hmeans [] rfl (pieces 0 cs).items hitems .done with
    ⟨events, found, hspells, hfound, hevents⟩
  -- Nothing follows the content, so no other event comes.
  have hread : pieceReader place cs = { items := events ++ [], fault := none } := by
    rw [Reading.behind, Reading.done, List.append_nil] at hevents
    rw [pieceReader, eventsOf, hfault]
    exact hevents
  rw [hread, List.append_nil]
  exact ⟨rfl, found, hspells, hfound⟩

section Documents

variable {read : EventReader}

theorem parseWith_eq_ok_iff_build {text : String} {root : Element} :
    parseWith read text = .ok root ↔
      build (utf8Length (dropMark text.toList)) (eventsWith read text) = .ok root := by
  simp only [parseWith]
  cases build (utf8Length (dropMark text.toList)) (eventsWith read text) with
  | error fault => simp only [reduceCtorEq]
  | ok found => simp only [Except.ok.injEq]

theorem unplacedAll_eq_singleton {nodes : List Node} {head : Head} {content : List Node}
    (h : Node.unplacedAll nodes = [.element head content]) :
    ∃ e : Element, nodes = [e.node] ∧ e.unplaced = { head := head, content := content } := by
  rcases nodes with _ | ⟨_ | ⟨head', content'⟩, rest⟩
  · exact absurd h (by simp only [Node.unplacedAll, reduceCtorEq, not_false_eq_true])
  · exact absurd h (by simp only [Node.unplacedAll, Node.unplaced, List.cons.injEq, reduceCtorEq,
      false_and, not_false_eq_true])
  · simp only [Node.unplacedAll, Node.unplaced, List.cons.injEq, Node.element.injEq] at h
    rcases rest with _ | ⟨node, rest⟩
    · refine ⟨⟨head', content'⟩, rfl, ?_⟩
      rw [Element.unplaced, h.1.1, h.1.2]
    · exact absurd h.2 (by simp only [Node.unplacedAll, reduceCtorEq, not_false_eq_true])

/-- A text that is one element is read as this element, up to positions. -/
theorem parseWith_of_isContent (hread : ReadsContent read) {cs : List Char} {head : Head}
    {content : List Node} (h : IsContent Scope.initial cs [.element head content])
    (hmark : dropMark cs = cs) :
    ∃ e, parseWith read (String.ofList cs) = .ok e ∧
      e.unplaced = { head := head, content := content } := by
  rcases isContent_iff.mp h with ⟨ps, hcut, hmeans⟩
  rcases hread (LineTable.ofText (String.ofList cs)).position (isCut_iff.mp hcut) hmeans with
    ⟨hfault, found, hspells, hfound⟩
  rcases unplacedAll_eq_singleton hfound with ⟨e, rfl, he⟩
  refine ⟨e, parseWith_eq_ok_iff_build.mpr ?_, he⟩
  have hrun : Builder.start.run (eventsWith read (String.ofList cs)).items =
      .ok { frames := [], root := some e } := by
    rw [eventsWith, String.toList_ofList, hmark]
    exact run_start_of_spells hspells
  have hnone : (eventsWith read (String.ofList cs)).fault = none := by
    rw [eventsWith, String.toList_ofList, hmark]
    exact hfault
  simp only [build, hrun, hnone, bind, Except.bind, Builder.finish]

end Documents

end Markup

end PackageSymbols

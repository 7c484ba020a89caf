import PackageSymbols.Proofs.Markup.Readers

/-!
# Documents Have One Root

A row of events is a document if it is one balanced element with nothing but blanks
around it. That the builder reads such rows is half of the matter, and `Content`
has it. Here it is shown that it reads no others: whenever it ends with a tree, the
events fall apart into blanks, the element and blanks.

The builder holds the elements that are open in a stack, and all of it is needed to
say what has been read so far. To take a run apart one looks ahead instead. As the
run ends with an empty stack, the innermost element that is open now is closed at
some later event, and up to there the events spell its content
(`exists_spells_of_run`). The induction is on the number of events, since behind an
inner element it is needed once more for what is left of the outer one.

Nothing is lost on the way. The walk through the tree in document order gives the
events of the element again, if an element in one tag is taken for one in two, and
the walk tells the tree.

None of this is about the reader of the events. `exists_parseWith_eq_ok_iff` is a
result about the builder behind any reader, and asks nothing of it; the texts that are
read are what it says of the reader of pieces.

## Main definitions

* `Event.tags`, `Event.content`, `Event.isBlank`: The tags and the text of an event.
* `IsBalanced`, `IsElement`: Rows in which every element ends, and single elements.
* `IsDocument`: A row with an element in it and blanks around.
* `readEvents`: The events of a text.

## Theorems

* `Spells.flatMap_tags`, `Spells.join_content`: What is spelled is walked again.
* `Node.eventsOfAll_injective`: The walk tells the tree.
* `isElement_iff`: An element is a row that spells one.
* `run_eq_ok_iff`: The runs that end with a tree.
* `build_eq_ok_iff`: The rows that a tree is built from.
* `parse_eq_of_map_events`: What is read is told by the walk through it.
* `exists_parseWith_eq_ok_iff`, `exists_parse_eq_ok_iff`: The texts that are read, and
  what their trees hold.
-/

namespace PackageSymbols

namespace Markup

open Text

/-- The tags that an event stands for: one with nothing inside stands for two. -/
def Event.tags : Event → List Event
  | .start head => [.start head]
  | .empty head => [.start head, .finish]
  | .finish => [.finish]
  | .text content => [.text content]

/-- The text that an event adds. -/
def Event.content : Event → String
  | .text content => content
  | _ => ""

/-- Whether an event is a text of nothing but blanks, as it may stand outside of the root. -/
def Event.isBlank : Event → Bool
  | .text content => isBlankText content
  | _ => false

/-- A row of events in which every element that begins ends, and no other ends. -/
inductive IsBalanced : List Event → Prop where
  /-- Nothing. -/
  | done : IsBalanced []
  /-- A text. -/
  | text (content : String) {rest : List Event} (hrest : IsBalanced rest) :
      IsBalanced (.text content :: rest)
  /-- An element in one tag. -/
  | empty (head : Head) {rest : List Event} (hrest : IsBalanced rest) :
      IsBalanced (.empty head :: rest)
  /-- An element in two tags. -/
  | element (head : Head) {inner rest : List Event} (hinner : IsBalanced inner)
      (hrest : IsBalanced rest) : IsBalanced (.start head :: (inner ++ .finish :: rest))

/-- Whether a row of events is one element. -/
def IsElement (row : List Event) : Prop :=
  (∃ head, row = [.empty head]) ∨
    ∃ head inner, IsBalanced inner ∧ row = .start head :: (inner ++ [.finish])

/-- Whether a row of events is an element with blanks around it. -/
def IsDocument (row element : List Event) : Prop :=
  ∃ before behind, row = before ++ element ++ behind ∧
    (∀ event ∈ before ++ behind, event.isBlank = true) ∧ IsElement element

/-- The events of a text. -/
def readEvents (text : String) : Reading Fault (Located Event) :=
  eventsOf (LineTable.ofText text).position (pieces 0 (dropMark text.toList))

section Walks

/-- A row that spells nodes is walked again in them. -/
theorem Spells.flatMap_tags {events : List (Located Event)} {nodes : List Node}
    (h : Spells events nodes) :
    events.flatMap (·.value.tags) = Node.eventsOfAll nodes := by
  induction h with
  | done => rfl
  | text offset content _ ih =>
      rw [List.flatMap_cons, ih]
      rfl
  | empty offset head _ ih =>
      rw [List.flatMap_cons, ih]
      rfl
  | element first last head _ _ ihInner ih =>
      rw [List.flatMap_cons, List.flatMap_append, List.flatMap_cons, ihInner, ih,
        Node.eventsOfAll, Node.events, List.append_assoc]
      rfl

/-- The text of nodes is that of the row that spells them. -/
theorem Spells.join_content {events : List (Located Event)} {nodes : List Node}
    (h : Spells events nodes) :
    String.join (events.map (·.value.content)) = Node.textOf nodes := by
  induction h with
  | done => rfl
  | text offset content _ ih =>
      rw [List.map_cons, String.join_cons, ih]
      rfl
  | empty offset head _ ih =>
      rw [List.map_cons, String.join_cons, ih]
      rfl
  | element first last head _ _ ihInner ih =>
      have hstart : (Event.start head).content = "" := rfl
      have hfinish : Event.finish.content = "" := rfl
      rw [List.map_cons, List.map_append, List.map_cons, String.join_cons, String.join_append,
        String.join_cons, ihInner, ih, hstart, hfinish, String.empty_append, String.empty_append,
        Node.textOf, Node.textContent]

/-- A row of events spells one row of nodes at most. -/
theorem Spells.unique {events : List (Located Event)} {nodes others : List Node}
    (h : Spells events nodes) (hother : Spells events others) : nodes = others := by
  -- The builder makes the content of an open element of them, whichever it is.
  let frame : Frame := { head := ⟨none, "", [], default⟩, content := [] }
  have hsame := (run_of_spells h frame [] none []).symm.trans
    (run_of_spells hother frame [] none [])
  simp only [Builder.run, Except.ok.injEq, Builder.mk.injEq, List.cons.injEq, Frame.mk.injEq,
    frame, List.append_nil, List.reverse_inj, true_and, and_true] at hsame
  exact hsame

mutual

/-- The walk through a node spells it, in front of a row that spells others. -/
theorem Node.spells_events : ∀ (node : Node) {rest : List (Located Event)} {nodes : List Node},
    Spells rest nodes → Spells (node.events.map (⟨0, ·⟩) ++ rest) (node :: nodes)
  | .text content, _, _, hrest => .text 0 content hrest
  | .element head content, rest, _, hrest => by
      have helement := Spells.element 0 0 head (Node.spells_eventsOfAll content) hrest
      rw [Node.events, List.map_append, List.map_cons, List.append_assoc]
      exact helement

/-- The walk through a row of nodes spells it. -/
theorem Node.spells_eventsOfAll : ∀ nodes : List Node,
    Spells ((Node.eventsOfAll nodes).map (⟨0, ·⟩)) nodes
  | [] => .done
  | node :: nodes => by
      rw [Node.eventsOfAll, List.map_append]
      exact Node.spells_events node (Node.spells_eventsOfAll nodes)

end

/-- The walk tells the nodes. -/
theorem Node.eventsOfAll_injective {nodes others : List Node}
    (h : Node.eventsOfAll nodes = Node.eventsOfAll others) : nodes = others := by
  have hnodes := Node.spells_eventsOfAll nodes
  rw [h] at hnodes
  exact hnodes.unique (Node.spells_eventsOfAll others)

theorem Node.eventsOfAll_singleton (node : Node) : Node.eventsOfAll [node] = node.events := by
  rw [Node.eventsOfAll, Node.eventsOfAll, List.append_nil]

theorem Element.events_injective {e other : Element} (h : e.node.events = other.node.events) :
    e = other := by
  rw [← Node.eventsOfAll_singleton, ← Node.eventsOfAll_singleton] at h
  have hnode := List.singleton_inj.mp (Node.eventsOfAll_injective h)
  rw [Element.node, Element.node, Node.element.injEq] at hnode
  cases e
  cases other
  rw [Element.mk.injEq]
  exact hnode

end Walks

section Balance

theorem Spells.isBalanced {events : List (Located Event)} {nodes : List Node}
    (h : Spells events nodes) : IsBalanced (events.map (·.value)) := by
  induction h with
  | done => exact .done
  | text offset content _ ih => exact .text content ih
  | empty offset head _ ih => exact .empty head ih
  | element first last head _ _ ihInner ih =>
      rw [List.map_cons, List.map_append, List.map_cons]
      exact .element head ihInner ih

theorem IsBalanced.exists_spells {row : List Event} (h : IsBalanced row) :
    ∀ events : List (Located Event), events.map (·.value) = row → ∃ nodes, Spells events nodes := by
  induction h with
  | done =>
      intro events hevents
      rw [List.map_eq_nil_iff.mp hevents]
      exact ⟨[], .done⟩
  | text content _ ih =>
      intro events hevents
      rcases List.map_eq_cons_iff.mp hevents with ⟨⟨offset, _⟩, rest, rfl, rfl, hrest⟩
      rcases ih rest hrest with ⟨nodes, hnodes⟩
      exact ⟨_, .text offset content hnodes⟩
  | empty head _ ih =>
      intro events hevents
      rcases List.map_eq_cons_iff.mp hevents with ⟨⟨offset, _⟩, rest, rfl, rfl, hrest⟩
      rcases ih rest hrest with ⟨nodes, hnodes⟩
      exact ⟨_, .empty offset head hnodes⟩
  | element head _ _ ihInner ih =>
      intro events hevents
      -- The row is taken apart at both tags, so that each part has its own induction hypothesis.
      rcases List.map_eq_cons_iff.mp hevents with ⟨⟨first, _⟩, after, rfl, rfl, hafter⟩
      rcases List.map_eq_append_iff.mp hafter with ⟨within, behind, rfl, hwithin, hbehind⟩
      rcases List.map_eq_cons_iff.mp hbehind with ⟨⟨last, _⟩, rest, rfl, rfl, hrest⟩
      rcases ihInner within hwithin with ⟨content, hcontent⟩
      rcases ih rest hrest with ⟨nodes, hnodes⟩
      exact ⟨_, .element first last head hcontent hnodes⟩

/-- A row of events is an element if it spells one. -/
theorem isElement_iff {events : List (Located Event)} :
    IsElement (events.map (·.value)) ↔ ∃ e : Element, Spells events [e.node] := by
  constructor
  · rintro (⟨head, hrow⟩ | ⟨head, inner, hinner, hrow⟩)
    · rcases List.map_eq_singleton_iff.mp hrow with ⟨⟨offset, _⟩, rfl, rfl⟩
      exact ⟨⟨head, []⟩, .empty offset head .done⟩
    · rcases List.map_eq_cons_iff.mp hrow with ⟨⟨first, _⟩, after, rfl, rfl, hafter⟩
      rcases List.map_eq_append_iff.mp hafter with ⟨within, behind, rfl, hwithin, hbehind⟩
      rcases List.map_eq_singleton_iff.mp hbehind with ⟨⟨last, _⟩, rfl, rfl⟩
      rcases hinner.exists_spells within hwithin with ⟨content, hcontent⟩
      exact ⟨⟨head, content⟩, .element first last head hcontent .done⟩
  · rintro ⟨⟨head, content⟩, h⟩
    cases h with
    | empty offset _ hrest =>
        cases hrest with
        | done => exact Or.inl ⟨head, rfl⟩
    | element first last _ hinner hrest =>
        cases hrest with
        | done =>
            refine Or.inr ⟨head, _, hinner.isBalanced, ?_⟩
            rw [List.map_cons, List.map_append, List.map_singleton]

end Balance

section Runs

theorem run_append (b : Builder) (events more : List (Located Event)) :
    b.run (events ++ more) = (b.run events).bind fun b => b.run more := by
  induction events generalizing b with
  | nil => rfl
  | cons event events ih =>
      rw [List.cons_append, Builder.run, Builder.run]
      cases b.step event.value with
      | error cause => rfl
      | ok b => exact ih b

/-- A run that closes the innermost element that is open closes it at some event, and up to there
    the events spell what is added to its content. -/
theorem exists_spells_of_run {frame : Frame} {frames : List Frame} {root : Option Element}
    {events : List (Located Event)} {b : Builder}
    (h : Builder.run { frames := frame :: frames, root := root } events = .ok b)
    (hb : b.frames = []) :
    ∃ inner last rest nodes, events = inner ++ ⟨last, .finish⟩ :: rest ∧ Spells inner nodes := by
  induction hn : events.length using Nat.strong_induction_on
    generalizing frame frames root events with
  | _ n ih =>
    rcases events with _ | ⟨⟨offset, event⟩, events⟩
    · rw [Builder.run, Except.ok.injEq] at h
      rw [← h] at hb
      exact absurd hb (List.cons_ne_nil _ _)
    · rw [List.length_cons] at hn
      rw [Builder.run] at h
      cases event with
      | finish => exact ⟨[], offset, events, [], rfl, .done⟩
      | text content =>
          rcases ih _ (by omega) h rfl with ⟨inner, last, rest, nodes, rfl, hinner⟩
          exact ⟨_, last, rest, _, rfl, .text offset content hinner⟩
      | empty head =>
          rcases ih _ (by omega) h rfl with ⟨inner, last, rest, nodes, rfl, hinner⟩
          exact ⟨_, last, rest, _, rfl, .empty offset head hinner⟩
      | start head =>
          simp only [Builder.step, List.isEmpty_cons, Bool.false_and, Bool.false_eq_true,
            if_false] at h
          -- The element that begins here is closed first, and then the one around it.
          rcases ih _ (by omega) h rfl with ⟨inner, last, behind, content, rfl, hinner⟩
          rw [run_of_spells hinner, Builder.run] at h
          rw [List.length_append, List.length_cons] at hn
          rcases ih _ (by omega) h rfl with ⟨after, final, rest, nodes, rfl, hafter⟩
          refine ⟨_, final, rest, _, ?_, .element offset last head hinner hafter⟩
          rw [List.cons_append, List.append_assoc, List.cons_append]

/-- Blanks outside of the root make no difference. -/
theorem run_of_blank {before : List (Located Event)}
    (h : ∀ event ∈ before, event.value.isBlank = true) (root : Option Element)
    (events : List (Located Event)) :
    Builder.run { frames := [], root := root } (before ++ events) =
      Builder.run { frames := [], root := root } events := by
  induction before with
  | nil => rfl
  | cons event before ih =>
      rw [List.forall_mem_cons] at h
      rcases event with ⟨offset, _ | _ | _ | content⟩
      case text =>
        rw [List.cons_append, Builder.run]
        simp only [Builder.step, if_pos (show isBlankText content = true from h.1)]
        exact ih h.2
      all_goals exact absurd h.1 Bool.false_ne_true

/-- Behind the root there are only blanks. -/
theorem isBlank_of_run {root : Element} {events : List (Located Event)} {b : Builder}
    (h : Builder.run { frames := [], root := some root } events = .ok b) :
    (∀ event ∈ events, event.value.isBlank = true) ∧ b = { frames := [], root := some root } := by
  induction events with
  | nil => exact ⟨List.forall_mem_nil _, (Except.ok.inj h).symm⟩
  | cons event events ih =>
      rcases event with ⟨offset, _ | _ | _ | content⟩
      case text =>
        rw [Builder.run] at h
        by_cases hblank : isBlankText content = true
        · simp only [Builder.step, if_pos hblank] at h
          exact ⟨List.forall_mem_cons.mpr ⟨hblank, (ih h).1⟩, (ih h).2⟩
        · simp only [Builder.step, if_neg hblank, reduceCtorEq] at h
      all_goals exact absurd h (by simp [Builder.run, Builder.step, Builder.place])

/-- A run that ends with a tree goes through an element that spells it, with blanks around. -/
theorem exists_spells_of_run_start {events : List (Located Event)} {root : Element}
    (h : Builder.start.run events = .ok { frames := [], root := some root }) :
    ∃ before element behind, events = before ++ element ++ behind ∧
      (∀ event ∈ before ++ behind, event.value.isBlank = true) ∧ Spells element [root.node] := by
  rw [Builder.start] at h
  induction events with
  | nil =>
      simp only [Builder.run, Except.ok.injEq, Builder.mk.injEq, reduceCtorEq, and_false] at h
  | cons event events ih =>
      rcases event with ⟨offset, event⟩
      rw [Builder.run] at h
      cases event with
      | finish => simp only [Builder.step, reduceCtorEq] at h
      | text content =>
          by_cases hblank : isBlankText content = true
          · simp only [Builder.step, if_pos hblank] at h
            rcases ih h with ⟨before, element, behind, rfl, hblanks, helement⟩
            exact ⟨⟨offset, .text content⟩ :: before, element, behind, rfl,
              List.forall_mem_cons.mpr ⟨hblank, hblanks⟩, helement⟩
          · simp only [Builder.step, if_neg hblank, reduceCtorEq] at h
      | empty head =>
          simp only [Builder.step, Builder.place] at h
          rcases isBlank_of_run h with ⟨hblanks, hroot⟩
          rw [Builder.mk.injEq, Option.some.injEq] at hroot
          rw [hroot.2]
          exact ⟨[], [⟨offset, .empty head⟩], events, rfl, hblanks, .empty offset head .done⟩
      | start head =>
          simp only [Builder.step, List.isEmpty_nil, Option.isSome_none, Bool.and_false,
            Bool.false_eq_true, if_false] at h
          -- The root ends at the event that closes it, and from there on there are only blanks.
          rcases exists_spells_of_run h rfl with ⟨inner, last, behind, content, rfl, hinner⟩
          rw [run_of_spells hinner, Builder.run] at h
          simp only [Builder.step, Builder.place, Frame.close, List.append_nil,
            List.reverse_reverse] at h
          rcases isBlank_of_run h with ⟨hblanks, hroot⟩
          rw [Builder.mk.injEq, Option.some.injEq] at hroot
          rw [hroot.2]
          refine ⟨[], ⟨offset, .start head⟩ :: (inner ++ [⟨last, .finish⟩]), behind, ?_, hblanks,
            .element offset last head hinner .done⟩
          rw [List.nil_append, List.cons_append, List.append_assoc, List.singleton_append]

/-- A run ends with a tree if the events are an element that spells it, with blanks around. -/
theorem run_eq_ok_iff {events : List (Located Event)} {root : Element} :
    Builder.start.run events = .ok { frames := [], root := some root } ↔
      ∃ before element behind, events = before ++ element ++ behind ∧
        (∀ event ∈ before ++ behind, event.value.isBlank = true) ∧
        Spells element [root.node] := by
  refine ⟨exists_spells_of_run_start, ?_⟩
  rintro ⟨before, element, behind, rfl, hblanks, helement⟩
  rw [List.forall_mem_append] at hblanks
  have hbehind := run_of_blank hblanks.2 (some root) []
  rw [List.append_nil, Builder.run] at hbehind
  rw [List.append_assoc, Builder.start, run_of_blank hblanks.1, run_append]
  have helement := run_start_of_spells helement
  rw [Builder.start] at helement
  rw [helement]
  exact hbehind

theorem finish_eq_ok_iff {b : Builder} {root : Element} :
    b.finish = .ok root ↔ b = { frames := [], root := some root } := by
  rcases b with ⟨_ | ⟨frame, frames⟩, _ | found⟩
  · simp [Builder.finish]
  · simp [Builder.finish]
  · simp [Builder.finish]
  · simp [Builder.finish]

/-- A tree is built from a row of events that is an element with blanks around, if nothing was at
    fault when they were read. -/
theorem build_eq_ok_iff {stop : Nat} {r : Reading Fault (Located Event)} {root : Element} :
    build stop r = .ok root ↔ r.fault = none ∧
      ∃ before element behind, r.items = before ++ element ++ behind ∧
        (∀ event ∈ before ++ behind, event.value.isBlank = true) ∧
        Spells element [root.node] := by
  -- The run counts first: its fault hides one that stopped the reading.
  rw [← run_eq_ok_iff, build]
  cases hrun : Builder.start.run r.items with
  | error fault =>
      simp only [bind, Except.bind, reduceCtorEq, and_false]
  | ok b =>
      rw [Except.ok.injEq, ← finish_eq_ok_iff]
      cases r.fault with
      | some fault => simp only [bind, Except.bind, reduceCtorEq, false_and]
      | none =>
          simp only [bind, Except.bind, true_and]
          cases b.finish with
          | error cause => simp only [reduceCtorEq]
          | ok found => rw [Except.ok.injEq, Except.ok.injEq]

end Runs

section Documents

/-- The events of a text that is read: blanks, the row that spells the tree, and blanks. -/
theorem parseWith_eq_ok_iff_spells {read : EventReader} {text : String} {root : Element} :
    parseWith read text = .ok root ↔ (eventsWith read text).fault = none ∧
      ∃ before element behind, (eventsWith read text).items = before ++ element ++ behind ∧
        (∀ event ∈ before ++ behind, event.value.isBlank = true) ∧
        Spells element [root.node] :=
  parseWith_eq_ok_iff_build.trans build_eq_ok_iff

theorem isDocument_iff {events : List (Located Event)} {row : List Event} :
    IsDocument (events.map (·.value)) row ↔
      ∃ before element behind, events = before ++ element ++ behind ∧
        (∀ event ∈ before ++ behind, event.value.isBlank = true) ∧
        element.map (·.value) = row ∧ ∃ e : Element, Spells element [e.node] := by
  constructor
  · rintro ⟨before, behind, hrow, hblanks, helement⟩
    -- The events are split where their values are.
    rcases List.map_eq_append_iff.mp hrow with ⟨front, after, rfl, hfront, rfl⟩
    rcases List.map_eq_append_iff.mp hfront with ⟨first, element, rfl, rfl, rfl⟩
    rw [← List.map_append] at hblanks
    exact ⟨first, element, after, rfl, fun event hevent => hblanks _ (List.mem_map_of_mem hevent),
      rfl, isElement_iff.mp helement⟩
  · rintro ⟨before, element, behind, rfl, hblanks, rfl, helement⟩
    refine ⟨before.map (·.value), behind.map (·.value), ?_, ?_, isElement_iff.mpr helement⟩
    · rw [List.map_append, List.map_append]
    · rw [← List.map_append]
      intro event hevent
      rcases List.mem_map.mp hevent with ⟨found, hfound, rfl⟩
      exact hblanks found hfound

/-- Whoever reads the events, a text is read if there is no fault among them, and they are an
    element with blanks around. The walk through the tree is the events of the element, its text is
    what they add, and no other tree has this walk. -/
theorem exists_parseWith_eq_ok_iff (read : EventReader) (text : String) :
    ((∃ root, parseWith read text = .ok root) ↔ (eventsWith read text).fault = none ∧
      ∃ element, IsDocument ((eventsWith read text).items.map (·.value)) element) ∧
    ∀ root element, parseWith read text = .ok root →
      IsDocument ((eventsWith read text).items.map (·.value)) element →
        root.node.events = element.flatMap Event.tags ∧
        root.textContent = String.join (element.map Event.content) ∧
        ∀ other : Element, other.node.events = element.flatMap Event.tags → other = root := by
  constructor
  · constructor
    · rintro ⟨root, hroot⟩
      rcases parseWith_eq_ok_iff_spells.mp hroot with
        ⟨hfault, before, element, behind, hitems, hblanks, helement⟩
      exact ⟨hfault, _, isDocument_iff.mpr
        ⟨before, element, behind, hitems, hblanks, rfl, root, helement⟩⟩
    · rintro ⟨hfault, row, hrow⟩
      rcases isDocument_iff.mp hrow with
        ⟨before, element, behind, hitems, hblanks, _, root, helement⟩
      exact ⟨root, parseWith_eq_ok_iff_spells.mpr
        ⟨hfault, before, element, behind, hitems, hblanks, helement⟩⟩
  · intro root row hroot hrow
    rcases isDocument_iff.mp hrow with
      ⟨before, element, behind, hitems, hblanks, rfl, found, helement⟩
    -- What the row spells is built from it, so it is the root.
    have hfound : parseWith read text = .ok found := parseWith_eq_ok_iff_spells.mpr
      ⟨(parseWith_eq_ok_iff_spells.mp hroot).1, before, element, behind, hitems, hblanks, helement⟩
    rw [hroot, Except.ok.injEq] at hfound
    rw [← hfound] at helement
    have hwalk : root.node.events = (element.map (·.value)).flatMap Event.tags := by
      rw [List.flatMap_map, helement.flatMap_tags, Node.eventsOfAll_singleton]
    refine ⟨hwalk, ?_, fun other hother => Element.events_injective (hother.trans hwalk.symm)⟩
    rw [List.map_map]
    have hcontent := helement.join_content
    rw [Node.textOf, Node.textOf, String.append_empty] at hcontent
    exact hcontent.symm

/-- A text is read if it is read into events without a fault, and these are an element with blanks
    around. The walk through the tree is the events of the element, its text is what they add, and
    no other tree has this walk. -/
theorem exists_parse_eq_ok_iff (text : String) :
    ((∃ root, parse text = .ok root) ↔ (readEvents text).fault = none ∧
      ∃ element, IsDocument ((readEvents text).items.map (·.value)) element) ∧
    ∀ root element, parse text = .ok root →
      IsDocument ((readEvents text).items.map (·.value)) element →
        root.node.events = element.flatMap Event.tags ∧
        root.textContent = String.join (element.map Event.content) ∧
        ∀ other : Element, other.node.events = element.flatMap Event.tags → other = root :=
  exists_parseWith_eq_ok_iff pieceReader text

/-- What is read is told by the walk through it, and walks can be compared. -/
theorem parse_eq_of_map_events {text : String} {outcome : Except Error Element}
    (h : (parse text).map (·.node.events) = outcome.map (·.node.events)) :
    parse text = outcome := by
  cases hparse : parse text with
  | error error =>
      cases outcome with
      | error other =>
          rw [hparse, Except.map, Except.map, Except.error.injEq] at h
          rw [h]
      | ok root =>
          rw [hparse] at h
          cases h
  | ok found =>
      cases outcome with
      | error other =>
          rw [hparse] at h
          cases h
      | ok root =>
          rw [hparse, Except.map, Except.map, Except.ok.injEq] at h
          rw [Element.events_injective h]

end Documents

end Markup

end PackageSymbols

import PackageSymbols.Markup.Tree
import PackageSymbols.Proofs.Markup.Heads

/-!
# Content of Elements

What may stand inside of an element is a matter of two grammars. `IsCut` says
how a text is cut into pieces, and `Means` says which rows of pieces are
balanced, and what such a row means where a scope holds. A text that fits both
is read as what it means wherever it stands, no matter what comes before it and
what follows, and this is what documents are put together from.

The reader knows neither grammar. It cuts, decodes and builds at once, with a
stack of open elements, and the two meet at `Spells`, the grammar of the events
in between: the pieces of content are read as events that spell its nodes, and
the builder follows spelled events with no look at what comes later. The offsets
at which things stand are known to nobody but the reader, so nodes are told up
to positions.

## Main definitions

* `IsCut`: A text, and the pieces it is cut into.
* `Means`: A balanced row of pieces, and the nodes that it means.
* `IsContent`: A text that is the content of an element.
* `Kind.Encloses`: A text that can stand between the brackets of markup.
* `Spells`: A row of events that makes up a row of nodes.
* `eventsOver`: The events of pieces that follow open elements.

## Theorems

* `Kind.split_eq_some_iff`: A scanner finds the first text that it can enclose.
* `pieces_append`: What is cut in front of a text moves the offsets behind it.
* `isContent_iff`: Content is what is cut into balanced pieces.
* `IsContent.append`: Content next to content is content.
* `run_of_spells`: A spelled row becomes content of the innermost open element.
* `eventsOver_of_means`: Balanced pieces are read as events that spell their
  nodes.
-/

namespace PackageSymbols

namespace Markup

open Text

section Grammar

/-- A text and the pieces it is cut into. -/
inductive IsCut : List Char → List Piece → Prop where
  /-- Nothing. -/
  | done : IsCut [] []
  /-- A run of text, up to markup or the end. -/
  | text {run rest : List Char} {ps : List Piece} (hne : run ≠ []) (hrun : ∀ c ∈ run, c ≠ '<')
      (hends : EndsText rest) (hrest : IsCut rest ps) : IsCut (run ++ rest) (.text run :: ps)
  /-- Markup that ends and begins like its kind. -/
  | markup {kind : Kind} {cs content rest : List Char} {piece : Piece} {ps : List Piece}
      (hkind : Kind.ofStart cs = some kind) (hsplit : kind.split cs = some (content, rest))
      (hpiece : kind.piece content = .ok piece) (hrest : IsCut rest ps) :
      IsCut ('<' :: cs) (piece :: ps)

/-- A balanced row of pieces, and the nodes that it means where a scope holds. -/
inductive Means : Scope → List Piece → List Node → Prop where
  /-- Nothing. -/
  | done {scope : Scope} : Means scope [] []
  /-- Something that says nothing about the tree. -/
  | aside {scope : Scope} {ps : List Piece} {nodes : List Node} (hrest : Means scope ps nodes) :
      Means scope (.aside :: ps) nodes
  /-- A text with references. -/
  | text {scope : Scope} {chars : List Char} {content : String} {ps : List Piece}
      {nodes : List Node} (hchars : resolve chars = .ok content) (hrest : Means scope ps nodes) :
      Means scope (.text chars :: ps) (.text content :: nodes)
  /-- Character data. -/
  | characterData {scope : Scope} (chars : List Char) {ps : List Piece} {nodes : List Node}
      (hrest : Means scope ps nodes) :
      Means scope (.characterData chars :: ps) (.text (String.ofList chars) :: nodes)
  /-- An element in one tag. -/
  | empty {scope inside : Scope} {chars : List Char} {head : Head} {ps : List Piece}
      {nodes : List Node}
      (htag : readTag scope 0 default (Tag.ofContent chars) = .ok (inside, head))
      (hrest : Means scope ps nodes) :
      Means scope (.emptyTag chars :: ps) (.element head [] :: nodes)
  /-- An element in two tags of one name, around content. -/
  | element {scope inside : Scope} {chars : List Char} {head : Head} {inner ps : List Piece}
      {content nodes : List Node}
      (htag : readTag scope 0 default (Tag.ofContent chars) = .ok (inside, head))
      (hinner : Means inside inner content) (hrest : Means scope ps nodes) :
      Means scope (.startTag chars :: (inner ++ .endTag (Tag.ofContent chars).name :: ps))
        (.element head content :: nodes)

/-- Whether a text is the content of an element where a scope holds, and means certain nodes: the
    text is cut without a fault, and the pieces are balanced. -/
def IsContent (scope : Scope) (cs : List Char) (nodes : List Node) : Prop :=
  (pieces 0 cs).fault = none ∧ Means scope ((pieces 0 cs).items.map (·.value)) nodes

end Grammar

/-- Items in front of a reading. -/
def Reading.behind {ε α : Type} (items : List α) (r : Reading ε α) : Reading ε α :=
  { r with items := items ++ r.items }

section Cutting

/-- Whether a `>` behind a text closes it, and no `>` in it does. -/
def IsClosedBy (closes : List Char → Bool) (content : List Char) : Prop :=
  closes content.reverse = true ∧
    ∀ less more, content = less ++ '>' :: more → closes less.reverse = false

/-- Whether a text can stand between the brackets of markup. -/
def Kind.Encloses : Kind → List Char → Prop
  | .comment, content => IsClosedBy closesComment content
  | .characterData, content => IsClosedBy closesCharacterData content
  | .doctype, content => IsClosedBy closesDoctype content
  | .instruction, content => IsClosedBy closesInstruction content
  | .tag, content => Crosses none content none

theorem splitAtClose_sound {closes : List Char → Bool} {seen cs content rest : List Char}
    (h : splitAtClose closes seen cs = some (content, rest)) :
    ∃ front, content = seen.reverse ++ front ∧ closes (front.reverse ++ seen) = true ∧
      ∀ less more, front = less ++ '>' :: more → closes (less.reverse ++ seen) = false := by
  induction cs generalizing seen with
  | nil => exact absurd h (by simp only [splitAtClose, reduceCtorEq, not_false_eq_true])
  | cons c cs ih =>
      rw [splitAtClose] at h
      by_cases hc : c = '>' ∧ closes seen = true
      · rw [if_pos hc, Option.some.injEq, Prod.mk.injEq] at h
        refine ⟨[], by rw [← h.1, List.append_nil], hc.2, fun less more hless => ?_⟩
        exact absurd hless.symm (List.append_ne_nil_of_right_ne_nil _ (List.cons_ne_nil _ _))
      · rw [if_neg hc] at h
        rcases ih h with ⟨front, rfl, hcloses, hfirst⟩
        refine ⟨c :: front, by rw [List.reverse_cons, List.append_assoc, List.singleton_append],
          by rw [List.reverse_cons, List.append_assoc, List.singleton_append]; exact hcloses, ?_⟩
        intro less more hless
        -- The character that was passed is a `>` that does not close, or is in front of all.
        rcases List.cons_eq_append_iff.mp hless with ⟨rfl, hmore⟩ | ⟨behind, rfl, hbehind⟩
        · rw [not_and, Bool.not_eq_true] at hc
          exact hc (List.cons.inj hmore).1.symm
        · rw [List.reverse_cons, List.append_assoc, List.singleton_append]
          exact hfirst behind more hbehind

theorem splitAtClose_complete {closes : List Char → Bool} {seen front : List Char}
    (hcloses : closes (front.reverse ++ seen) = true)
    (hfirst : ∀ less more, front = less ++ '>' :: more → closes (less.reverse ++ seen) = false)
    (rest : List Char) :
    splitAtClose closes seen (front ++ '>' :: rest) = some (seen.reverse ++ front, rest) := by
  induction front generalizing seen with
  | nil => rw [List.nil_append, splitAtClose, if_pos ⟨rfl, hcloses⟩, List.append_nil]
  | cons c front ih =>
      have hpassed : ¬(c = '>' ∧ closes seen = true) := by
        rintro ⟨rfl, hclosed⟩
        have hopen := hfirst [] front rfl
        rw [List.reverse_nil, List.nil_append, hclosed] at hopen
        exact Bool.false_ne_true hopen.symm
      have hmoved : ∀ cs : List Char, (c :: cs).reverse ++ seen = cs.reverse ++ c :: seen :=
        fun cs => by rw [List.reverse_cons, List.append_assoc, List.singleton_append]
      rw [hmoved] at hcloses
      rw [List.cons_append, splitAtClose, if_neg hpassed, ih hcloses, List.reverse_cons,
        List.append_assoc, List.singleton_append]
      intro less more hless
      rw [← hmoved]
      exact hfirst (c :: less) more (congrArg (c :: ·) hless)

theorem splitOutsideQuotes_sound {quote : Option Char} {seen cs content rest : List Char}
    (h : splitOutsideQuotes quote seen cs = some (content, rest)) :
    ∃ front, content = seen.reverse ++ front ∧ Crosses quote front none := by
  induction cs generalizing quote seen with
  | nil => exact absurd h (by simp only [splitOutsideQuotes, reduceCtorEq, not_false_eq_true])
  | cons c cs ih =>
      rw [splitOutsideQuotes] at h
      by_cases hc : c = '>' ∧ quote = none
      · rw [if_pos hc, Option.some.injEq, Prod.mk.injEq] at h
        exact ⟨[], by rw [← h.1, List.append_nil], hc.2⟩
      · rw [if_neg hc] at h
        rcases ih h with ⟨front, rfl, hcrosses⟩
        exact ⟨c :: front, by rw [List.reverse_cons, List.append_assoc, List.singleton_append],
          hc, hcrosses⟩

/-- Markup ends at the first `>` that closes it. -/
theorem Kind.split_eq_some_iff {kind : Kind} {cs content rest : List Char} :
    kind.split cs = some (content, rest) ↔ cs = content ++ '>' :: rest ∧ kind.Encloses content := by
  constructor
  · intro h
    refine ⟨(kind.split_eq_append h).symm, ?_⟩
    cases kind
    case tag =>
      rcases splitOutsideQuotes_sound h with ⟨_, rfl, hcrosses⟩
      exact hcrosses
    all_goals
      rcases splitAtClose_sound h with ⟨front, rfl, hcloses, hfirst⟩
      simp only [List.append_nil] at hcloses hfirst
      exact ⟨hcloses, hfirst⟩
  · rintro ⟨rfl, h⟩
    cases kind
    case tag => exact splitOutsideQuotes_of_crosses h rest
    all_goals
      refine splitAtClose_complete ?_ ?_ rest
      · rw [List.append_nil]
        exact h.1
      · simp only [List.append_nil]
        exact h.2

/-- Where markup ends does not depend on what follows. -/
theorem Kind.split_closed {kind : Kind} {cs content rest : List Char}
    (h : kind.split cs = some (content, rest)) (other : List Char) :
    kind.split (content ++ '>' :: other) = some (content, other) :=
  Kind.split_eq_some_iff.mpr ⟨rfl, (Kind.split_eq_some_iff.mp h).2⟩

theorem ofStart_bang (d : Char) (cs : List Char) :
    Kind.ofStart ('!' :: d :: cs) =
      if d = '[' then some .characterData
      else if d = '-' then some .comment
      else if d = 'D' ∨ d = 'd' then some .doctype
      else none := by
  by_cases hbracket : d = '['
  · rw [if_pos hbracket, hbracket]
    rfl
  · rw [if_neg hbracket]
    by_cases hdash : d = '-'
    · rw [if_pos hdash, hdash]
      rfl
    · rw [if_neg hdash]
      by_cases hletter : d = 'D' ∨ d = 'd'
      · rw [if_pos hletter]
        rcases hletter with rfl | rfl
        · rfl
        · rfl
      · rw [if_neg hletter, Kind.ofStart]
        · exact fun _ he => hbracket (List.cons.inj he).1
        · exact fun _ he => hdash (List.cons.inj he).1
        · exact fun _ he => hletter (.inl (List.cons.inj he).1)
        · exact fun _ he => hletter (.inr (List.cons.inj he).1)

/-- The kind of markup does not depend on what follows its end. -/
theorem Kind.ofStart_closed (content rest other : List Char) :
    Kind.ofStart (content ++ '>' :: rest) = Kind.ofStart (content ++ '>' :: other) := by
  -- The kind is told by the first two characters, of which the end may be one.
  have htwo : ∀ (c d : Char) (xs ys : List Char),
      Kind.ofStart (c :: d :: xs) = Kind.ofStart (c :: d :: ys) := by
    intro c d xs ys
    by_cases hc : c = '!'
    · rw [hc, ofStart_bang, ofStart_bang]
    · by_cases hq : c = '?'
      · rw [hq]
        rfl
      · rw [ofStart_eq_tag hc hq, ofStart_eq_tag hc hq]
  rcases content with _ | ⟨c, _ | ⟨d, content⟩⟩
  · rfl
  · exact htwo c '>' rest other
  · exact htwo c d _ _

theorem pieces_markup {kind : Kind} {cs content rest : List Char} {piece : Piece}
    (hkind : Kind.ofStart cs = some kind) (hsplit : kind.split cs = some (content, rest))
    (hpiece : kind.piece content = .ok piece) (offset : Nat) :
    pieces offset ('<' :: cs) =
      .cons ⟨offset, piece⟩ (pieces (offset + utf8Length content + 2) rest) := by
  rw [pieces]
  simp only [if_true, hkind]
  split
  · next hnone =>
      rw [hsplit] at hnone
      exact absurd hnone (by simp only [reduceCtorEq, not_false_eq_true])
  · next hsome =>
      rw [hsplit] at hsome
      simp only [Option.some.injEq, Prod.mk.injEq] at hsome
      rw [← hsome.1, ← hsome.2, hpiece]

theorem EndsText.append {xs ys : List Char} (hxs : EndsText xs) (hys : EndsText ys) :
    EndsText (xs ++ ys) := by
  rcases xs with _ | ⟨x, xs⟩
  · exact hys
  · exact fun c cs he => (List.cons.inj he).1 ▸ hxs x xs rfl

/-- The reader cuts the front of a text into its pieces, at whatever offset it stands, unless a
    run of text would go on. What follows is cut at the offset that comes behind the front. -/
theorem pieces_append {front rest : List Char} {ps : List Piece} (h : IsCut front ps)
    (hends : EndsText rest) (offset : Nat) :
    ∃ items, items.map (·.value) = ps ∧
      pieces offset (front ++ rest) = (pieces (offset + utf8Length front) rest).behind items := by
  induction h generalizing offset with
  | done => exact ⟨[], rfl, rfl⟩
  | @text run behind ps hne hrun hmore _ ih =>
      rcases ih (offset + utf8Length run) with ⟨items, hitems, hbehind⟩
      refine ⟨⟨offset, .text run⟩ :: items, congrArg (_ :: ·) hitems, ?_⟩
      rw [List.append_assoc, pieces_text hne hrun (hmore.append hends), hbehind,
        utf8Length_append, Nat.add_assoc]
      rfl
  | @markup kind cs content behind piece ps hkind hsplit hpiece _ ih =>
      rcases ih (offset + utf8Length content + 2) with ⟨items, hitems, hbehind⟩
      refine ⟨⟨offset, piece⟩ :: items, congrArg (_ :: ·) hitems, ?_⟩
      have hcs := kind.split_eq_append hsplit
      subst hcs
      -- Both ends of the markup take one byte.
      have hlength : offset + utf8Length ('<' :: (content ++ '>' :: behind)) =
          offset + utf8Length content + 2 + utf8Length behind := by
        have hopen : '<'.utf8Size = 1 := rfl
        have hclose : '>'.utf8Size = 1 := rfl
        rw [utf8Length_cons, utf8Length_append, utf8Length_cons, hopen, hclose]
        omega
      rw [hlength, List.cons_append, List.append_assoc, List.cons_append,
        pieces_markup ((Kind.ofStart_closed _ _ _).trans hkind) (Kind.split_closed hsplit _) hpiece,
        hbehind]
      rfl

/-- The reader cuts a text into its pieces, at whatever offset the text stands. -/
theorem pieces_of_isCut {cs : List Char} {ps : List Piece} (h : IsCut cs ps) (offset : Nat) :
    (pieces offset cs).fault = none ∧ (pieces offset cs).items.map (·.value) = ps := by
  have hnil : EndsText [] := fun c rest he => absurd he.symm (List.cons_ne_nil c rest)
  rcases pieces_append h hnil offset with ⟨items, hitems, hpieces⟩
  rw [List.append_nil, pieces] at hpieces
  rw [hpieces]
  exact ⟨rfl, by rw [Reading.behind, Reading.done, List.append_nil, hitems]⟩

theorem endsText_dropWhile (cs : List Char) : EndsText (cs.dropWhile (· != '<')) := by
  intro c rest hcs
  have hhead := List.head?_dropWhile_not (· != '<') cs
  rw [hcs, List.head?_cons] at hhead
  simpa using hhead

/-- A text that does not begin with markup is a run of text and what ends it. -/
theorem run_append_dropWhile {c : Char} (hc : c ≠ '<') (rest : List Char) :
    c :: rest = c :: rest.takeWhile (· != '<') ++ rest.dropWhile (· != '<') ∧
      ∀ d ∈ c :: rest.takeWhile (· != '<'), d ≠ '<' := by
  refine ⟨congrArg (c :: ·) List.takeWhile_append_dropWhile.symm, fun d hd => ?_⟩
  rcases List.mem_cons.mp hd with rfl | hd
  · exact hc
  · have hgo := List.mem_takeWhile_imp (p := fun d => d != '<') hd
    exact bne_iff_ne.mp hgo

/-- What the reader cuts without a fault is cut. -/
theorem isCut_of_pieces (offset : Nat) (cs : List Char) (h : (pieces offset cs).fault = none) :
    IsCut cs ((pieces offset cs).items.map (·.value)) := by
  fun_induction pieces offset cs with
  | case1 => exact .done
  | case2 => exact absurd h (by simp only [Reading.fail, reduceCtorEq, not_false_eq_true])
  | case3 => exact absurd h (by simp only [Reading.fail, reduceCtorEq, not_false_eq_true])
  | case4 => exact absurd h (by simp only [Reading.fail, reduceCtorEq, not_false_eq_true])
  | case5 offset rest kind hkind content after hsplit piece hpiece ih =>
      exact .markup hkind hsplit hpiece (ih h)
  | case6 offset c rest hc run ih =>
      rcases run_append_dropWhile hc rest with ⟨hcs, hrun⟩
      rw [hcs]
      exact .text (List.cons_ne_nil _ _) hrun (endsText_dropWhile rest) (ih h)

/-- Behind markup anything else may stand. -/
theorem IsCut.behind_markup {kind : Kind} {content rest other : List Char} {piece : Piece}
    {ps : List Piece} (hkind : Kind.ofStart (content ++ '>' :: rest) = some kind)
    (hsplit : kind.split (content ++ '>' :: rest) = some (content, rest))
    (hpiece : kind.piece content = .ok piece) (hother : IsCut other ps) :
    IsCut ('<' :: (content ++ '>' :: other)) (piece :: ps) :=
  .markup ((Kind.ofStart_closed _ _ _).trans hkind) (Kind.split_closed hsplit other) hpiece hother

/-- Texts that are cut are cut next to each other, unless a run of text would go on. -/
theorem IsCut.append {xs ys : List Char} {ps qs : List Piece} (hxs : IsCut xs ps)
    (hys : IsCut ys qs) (hends : EndsText ys) : IsCut (xs ++ ys) (ps ++ qs) := by
  induction hxs with
  | done => exact hys
  | text hne hrun hmore _ ih =>
      rw [List.append_assoc]
      exact .text hne hrun (hmore.append hends) ih
  | @markup kind cs content rest piece ps hkind hsplit hpiece _ ih =>
      have hcs := kind.split_eq_append hsplit
      subst hcs
      rw [List.cons_append, List.append_assoc, List.cons_append]
      exact .behind_markup hkind hsplit hpiece ih

/-- A tag is one piece. -/
theorem IsCut.tag {content rest : List Char} {ps : List Piece}
    (hstart : Kind.ofStart (content ++ '>' :: rest) = some .tag)
    (hcrosses : Crosses none content none) (hrest : IsCut rest ps) :
    IsCut ('<' :: (content ++ '>' :: rest)) (tagPiece content :: ps) :=
  -- The reader splits where the writer put the end.
  .markup hstart (splitOutsideQuotes_of_crosses hcrosses rest) rfl hrest

end Cutting

section Balance

variable {scope : Scope}

theorem Means.append {ps qs : List Piece} {nodes more : List Node} (h : Means scope ps nodes)
    (hmore : Means scope qs more) : Means scope (ps ++ qs) (nodes ++ more) := by
  induction h with
  | done => exact hmore
  | aside _ ih => exact .aside (ih hmore)
  | text hchars _ ih => exact .text hchars (ih hmore)
  | characterData chars _ ih => exact .characterData chars (ih hmore)
  | empty htag _ ih => exact .empty htag (ih hmore)
  | element htag hinner _ _ ih =>
      rw [List.cons_append, List.append_assoc, List.cons_append]
      exact .element htag hinner (ih hmore)

/-- A text is content if it is cut into balanced pieces. -/
theorem isContent_iff {cs : List Char} {nodes : List Node} :
    IsContent scope cs nodes ↔ ∃ ps, IsCut cs ps ∧ Means scope ps nodes := by
  constructor
  · rintro ⟨hfault, hmeans⟩
    exact ⟨_, isCut_of_pieces 0 cs hfault, hmeans⟩
  · rintro ⟨ps, hcut, hmeans⟩
    have hpieces := pieces_of_isCut hcut 0
    exact ⟨hpieces.1, hpieces.2.symm ▸ hmeans⟩

theorem IsContent.nil : IsContent scope [] [] :=
  isContent_iff.mpr ⟨[], .done, .done⟩

/-- Content next to content is content, unless a run of text would go on. -/
theorem IsContent.append {xs ys : List Char} {nodes more : List Node}
    (hxs : IsContent scope xs nodes) (hys : IsContent scope ys more) (hends : EndsText ys) :
    IsContent scope (xs ++ ys) (nodes ++ more) := by
  rcases isContent_iff.mp hxs with ⟨ps, hps, hnodes⟩
  rcases isContent_iff.mp hys with ⟨qs, hqs, hmore⟩
  exact isContent_iff.mpr ⟨ps ++ qs, hps.append hqs hends, hnodes.append hmore⟩

/-- A written text in front of content that does not begin with a text. -/
theorem IsContent.text {content : String} (hne : content ≠ "") {rest : List Char}
    {nodes : List Node} (hrest : IsContent scope rest nodes) (hends : EndsText rest) :
    IsContent scope (escape content.toList ++ rest) (.text content :: nodes) := by
  rcases isContent_iff.mp hrest with ⟨ps, hps, hnodes⟩
  have hchars : content.toList ≠ [] := fun he => hne (String.toList_eq_nil_iff.mp he)
  refine isContent_iff.mpr ⟨_, .text (escape_ne_nil hchars) ?_ hends hps,
    .text (resolve_escape content) hnodes⟩
  exact fun c hc => (ne_of_mem_escape hc).1

variable {o : Opening}

theorem readTag_ofContent (h : o.WellFormed (o.scope scope)) :
    readTag scope 0 default (Tag.ofContent o.chars) =
      .ok (o.scope scope, o.head (o.scope scope)) := by
  rw [Opening.chars, ofContent_tagChars h.label.isTagName, readTag_chars h]
  rfl

/-- A written element in one tag in front of content. -/
theorem IsContent.empty (h : o.WellFormed (o.scope scope)) {rest : List Char} {nodes : List Node}
    (hrest : IsContent scope rest nodes) :
    IsContent scope ('<' :: (o.chars ++ ['/'] ++ '>' :: rest))
      (.element (o.head (o.scope scope)) [] :: nodes) := by
  rcases isContent_iff.mp hrest with ⟨ps, hps, hnodes⟩
  have hname := h.label.isTagName
  have hslash : Crosses none ['/'] none := ⟨by decide, rfl⟩
  have hstart : Kind.ofStart (o.chars ++ ['/'] ++ '>' :: rest) = some .tag := by
    rw [Opening.chars, tagChars, List.append_assoc, List.append_assoc]
    exact h.label.ofStart _
  have hcut := IsCut.tag hstart ((crosses_tagChars hname h.isWritable).append hslash) hps
  have hpiece : tagPiece (o.chars ++ ['/']) = .emptyTag o.chars := tagPiece_empty hname _
  rw [hpiece] at hcut
  exact isContent_iff.mpr ⟨_, hcut, .empty (readTag_ofContent h) hnodes⟩

/-- A written element in two tags, around content and in front of content. -/
theorem IsContent.element (h : o.WellFormed (o.scope scope)) {inner rest : List Char}
    {content nodes : List Node} (hinner : IsContent (o.scope scope) inner content)
    (hrest : IsContent scope rest nodes) :
    IsContent scope
      ('<' :: (o.chars ++ '>' :: (inner ++ '<' :: ('/' :: o.label.chars ++ '>' :: rest))))
      (.element (o.head (o.scope scope)) content :: nodes) := by
  rcases isContent_iff.mp hinner with ⟨qs, hqs, hcontent⟩
  rcases isContent_iff.mp hrest with ⟨ps, hps, hnodes⟩
  have hname := h.label.isTagName
  have hslash : Crosses none ['/'] none := ⟨by decide, rfl⟩
  have hend : IsCut ('<' :: ('/' :: o.label.chars ++ '>' :: rest))
      (.endTag o.label.chars :: ps) := by
    have hcut := IsCut.tag (ofStart_eq_tag (by decide) (by decide) _)
      (hslash.append (crosses_of_inert hname.inert)) hps
    have hpiece : tagPiece (['/'] ++ o.label.chars) = .endTag o.label.chars := tagPiece_end hname
    rw [hpiece] at hcut
    exact hcut
  -- The run of text that the inner content may end with ends at the end tag.
  have hbehind := hqs.append hend fun _ _ he => (List.cons.inj he).1.symm
  have hstart : Kind.ofStart (o.chars ++ '>' :: (inner ++ '<' ::
      ('/' :: o.label.chars ++ '>' :: rest))) = some .tag := by
    rw [Opening.chars, tagChars, List.append_assoc]
    exact h.label.ofStart _
  have hcut := IsCut.tag hstart (crosses_tagChars hname h.isWritable) hbehind
  have hpiece : tagPiece o.chars = .startTag o.chars := tagPiece_tagChars hname _
  have hmeans := Means.element (readTag_ofContent h) hcontent hnodes
  have hlabel : (Tag.ofContent o.chars).name = o.label.chars := by
    rw [Opening.chars, ofContent_tagChars hname]
  rw [hpiece] at hcut
  rw [hlabel] at hmeans
  exact isContent_iff.mpr ⟨_, hcut, hmeans⟩

end Balance

section Tree

/-- A row of events that makes up a row of nodes. -/
inductive Spells : List (Located Event) → List Node → Prop where
  /-- Nothing. -/
  | done : Spells [] []
  /-- A text. -/
  | text (offset : Nat) (content : String) {rest : List (Located Event)} {nodes : List Node}
      (hrest : Spells rest nodes) :
      Spells (⟨offset, .text content⟩ :: rest) (.text content :: nodes)
  /-- An element in one tag. -/
  | empty (offset : Nat) (head : Head) {rest : List (Located Event)} {nodes : List Node}
      (hrest : Spells rest nodes) :
      Spells (⟨offset, .empty head⟩ :: rest) (.element head [] :: nodes)
  /-- An element in two tags. -/
  | element (first last : Nat) (head : Head) {inner rest : List (Located Event)}
      {content nodes : List Node} (hinner : Spells inner content) (hrest : Spells rest nodes) :
      Spells (⟨first, .start head⟩ :: (inner ++ ⟨last, .finish⟩ :: rest))
        (.element head content :: nodes)

/-- A spelled row becomes content of the innermost open element. -/
theorem run_of_spells {events : List (Located Event)} {nodes : List Node}
    (h : Spells events nodes) :
    ∀ (frame : Frame) (frames : List Frame) (root : Option Element)
      (more : List (Located Event)),
      Builder.run { frames := frame :: frames, root := root } (events ++ more) =
        Builder.run
          { frames := { frame with content := nodes.reverse ++ frame.content } :: frames
            root := root } more := by
  induction h with
  | done => exact fun _ _ _ _ => rfl
  | text offset content _ ih =>
      intro frame frames root more
      rw [List.cons_append, Builder.run]
      simp only [Builder.step]
      rw [ih, List.reverse_cons, List.append_assoc]
      rfl
  | empty offset head _ ih =>
      intro frame frames root more
      rw [List.cons_append, Builder.run]
      simp only [Builder.step, Builder.place]
      rw [ih, List.reverse_cons, List.append_assoc]
      rfl
  | element first last head _ _ ihInner ihRest =>
      intro frame frames root more
      rw [List.cons_append, List.append_assoc, List.cons_append, Builder.run]
      simp only [Builder.step, List.isEmpty_cons, Bool.false_and, Bool.false_eq_true, if_false]
      -- The row inside is spelled into a frame of its own, which the end puts into the outer one.
      rw [ihInner, Builder.run]
      simp only [Builder.step, Builder.place, Frame.close, Element.node, List.append_nil,
        List.reverse_reverse]
      rw [ihRest, List.reverse_cons, List.append_assoc]
      rfl

/-- A spelled element is a document. -/
theorem run_start_of_spells {events : List (Located Event)} {head : Head} {content : List Node}
    (h : Spells events [.element head content]) :
    Builder.start.run events =
      .ok { frames := [], root := some { head := head, content := content } } := by
  cases h with
  | empty offset _ hrest =>
      cases hrest with
      | done => rfl
  | element first last _ hinner hrest =>
      cases hrest with
      | done =>
          rw [Builder.run]
          simp only [Builder.step, Builder.start, List.isEmpty_nil, Option.isSome_none,
            Bool.and_false, Bool.false_eq_true, if_false]
          -- What is inside becomes the content, and the end tag makes it the root.
          rw [run_of_spells hinner, Builder.run]
          simp only [Builder.step, Builder.place, Frame.close, List.append_nil,
            List.reverse_reverse]
          rfl

end Tree

section Events

/-- The events of pieces that follow open elements. -/
def eventsOver (place : Nat → Position) (opened : List OpenTag)
    (r : Reading Fault (Located Piece)) : Reading Fault (Located Event) :=
  eventsFrom place r.fault opened r.items

variable {place : Nat → Position} {opened after : List OpenTag}

theorem eventsOver_cons {piece : Located Piece} {event : Event}
    (h : readPiece place opened piece = .ok (some event, after))
    (r : Reading Fault (Located Piece)) :
    eventsOver place opened (.cons piece r) =
      .cons ⟨piece.offset, event⟩ (eventsOver place after r) := by
  -- The fault of the pieces is not looked at before the last of them.
  have hstep : eventsOver place opened (.cons piece r) =
      eventsFrom place r.fault opened (piece :: r.items) := rfl
  rw [hstep, eventsFrom, h]
  rfl

theorem eventsOver_cons_of_none {piece : Located Piece}
    (h : readPiece place opened piece = .ok (none, after)) (r : Reading Fault (Located Piece)) :
    eventsOver place opened (.cons piece r) = eventsOver place after r := by
  have hstep : eventsOver place opened (.cons piece r) =
      eventsFrom place r.fault opened (piece :: r.items) := rfl
  rw [hstep, eventsFrom, h]
  rfl

theorem readHead_moved {scope : Scope} {tag : Tag} {position : Position} {head : Head}
    (h : readHead scope tag position = .ok head) (other : Position) :
    readHead scope tag other = .ok { head with position := other } := by
  rw [readHead] at h ⊢
  cases hname : scope.elementName tag.name with
  | error cause =>
      rw [hname] at h
      cases h
  | ok name =>
      cases hattributes : (tag.distinctAttributes.traverse (readAttribute scope)).toExcept with
      | error cause =>
          rw [hname, hattributes] at h
          cases h
      | ok attributes =>
          rw [hname, hattributes] at h
          cases h
          rfl

/-- What a tag says does not depend on where it stands, but for its position. -/
theorem readTag_moved {outer inside : Scope} {offset : Nat} {position : Position} {tag : Tag}
    {head : Head} (h : readTag outer offset position tag = .ok (inside, head)) (other : Nat)
    (place : Position) :
    readTag outer other place tag = .ok (inside, { head with position := place }) := by
  rw [readTag] at h ⊢
  cases hdeclare : outer.declare tag.attributes.items with
  | error cause => simp only [hdeclare, reduceCtorEq] at h
  | ok scope =>
      cases hhead : readHead scope tag position with
      | error cause => simp only [hdeclare, hhead, reduceCtorEq] at h
      | ok found =>
          simp only [hdeclare, hhead, Except.ok.injEq, Prod.mk.injEq] at h
          rw [← h.1, ← h.2]
          simp only [readHead_moved hhead place]

theorem position_of_readTag {outer inside : Scope} {offset : Nat} {position : Position} {tag : Tag}
    {head : Head} (h : readTag outer offset position tag = .ok (inside, head)) :
    head.position = position := by
  -- Moved to where it is already, the tag says the same.
  have hsame := h.symm.trans (readTag_moved h offset position)
  rw [Except.ok.injEq, Prod.mk.injEq] at hsame
  exact congrArg Head.position hsame.2

theorem readTag_of_default {outer inside : Scope} {tag : Tag} {head : Head}
    (h : readTag outer 0 default tag = .ok (inside, head)) (offset : Nat) (position : Position) :
    ∃ placed, readTag outer offset position tag = .ok (inside, placed) ∧
      { placed with position := default } = head := by
  refine ⟨_, readTag_moved h offset position, ?_⟩
  have hdefault := position_of_readTag h
  cases head
  cases hdefault
  rfl

/-- Balanced pieces are read as events that spell their nodes, in front of the events of what
    follows. -/
theorem eventsOver_of_means (place : Nat → Position) {scope : Scope} {ps : List Piece}
    {nodes : List Node} (h : Means scope ps nodes) :
    ∀ opened : List OpenTag, scopeInside opened = scope → ∀ items : List (Located Piece),
      items.map (·.value) = ps → ∀ r : Reading Fault (Located Piece),
      ∃ events found, Spells events found ∧ Node.unplacedAll found = nodes ∧
        eventsOver place opened (r.behind items) = (eventsOver place opened r).behind events := by
  induction h with
  | done =>
      intro opened _ items hitems r
      rw [List.map_eq_nil_iff.mp hitems]
      exact ⟨[], [], .done, rfl, rfl⟩
  | aside _ ih =>
      intro opened hscope items hitems r
      rcases List.map_eq_cons_iff.mp hitems with ⟨⟨offset, _⟩, rest, rfl, rfl, hrest⟩
      rcases ih opened hscope rest hrest r with ⟨events, found, hspells, hfound, hevents⟩
      exact ⟨events, found, hspells, hfound, (eventsOver_cons_of_none rfl _).trans hevents⟩
  | @text scope chars content ps nodes hchars _ ih =>
      intro opened hscope items hitems r
      rcases List.map_eq_cons_iff.mp hitems with ⟨⟨offset, _⟩, rest, rfl, rfl, hrest⟩
      rcases ih opened hscope rest hrest r with ⟨events, found, hspells, hfound, hevents⟩
      have hpiece : readPiece place opened ⟨offset, .text chars⟩ =
          .ok (some (.text content), opened) := by
        simp only [readPiece, hchars]
      refine ⟨_, _, .text offset content hspells, congrArg (_ :: ·) hfound, ?_⟩
      exact (eventsOver_cons hpiece _).trans (congrArg (Reading.cons _) hevents)
  | characterData chars _ ih =>
      intro opened hscope items hitems r
      rcases List.map_eq_cons_iff.mp hitems with ⟨⟨offset, _⟩, rest, rfl, rfl, hrest⟩
      rcases ih opened hscope rest hrest r with ⟨events, found, hspells, hfound, hevents⟩
      refine ⟨_, _, .text offset _ hspells, congrArg (_ :: ·) hfound, ?_⟩
      exact (eventsOver_cons rfl _).trans (congrArg (Reading.cons _) hevents)
  | @empty scope inside chars head ps nodes htag _ ih =>
      intro opened hscope items hitems r
      rcases List.map_eq_cons_iff.mp hitems with ⟨⟨offset, _⟩, rest, rfl, rfl, hrest⟩
      rcases ih opened hscope rest hrest r with ⟨events, found, hspells, hfound, hevents⟩
      rcases readTag_of_default htag offset (place offset) with ⟨placed, hread, hplaced⟩
      have hpiece : readPiece place opened ⟨offset, .emptyTag chars⟩ =
          .ok (some (.empty placed), opened) := by
        simp only [readPiece, hscope, hread]
        rfl
      refine ⟨_, _, .empty offset placed hspells, ?_, ?_⟩
      · rw [Node.unplacedAll, Node.unplaced, hplaced, hfound, Node.unplacedAll]
      · exact (eventsOver_cons hpiece _).trans (congrArg (Reading.cons _) hevents)
  | @element scope inside chars head inner ps content nodes htag _ _ ihInner ih =>
      intro opened hscope items hitems r
      rcases List.map_eq_cons_iff.mp hitems with ⟨⟨offset, _⟩, after, rfl, rfl, hafter⟩
      rcases List.map_eq_append_iff.mp hafter with ⟨within, behind, rfl, hwithin, hbehind⟩
      rcases List.map_eq_cons_iff.mp hbehind with ⟨⟨last, _⟩, rest, rfl, rfl, hrest⟩
      rcases readTag_of_default htag offset (place offset) with ⟨placed, hread, hplaced⟩
      have hstart : readPiece place opened ⟨offset, .startTag chars⟩ =
          .ok (some (.start placed), ⟨(Tag.ofContent chars).name, inside⟩ :: opened) := by
        simp only [readPiece, hscope, hread]
        rfl
      have hend : readPiece place (⟨(Tag.ofContent chars).name, inside⟩ :: opened)
          ⟨last, .endTag (Tag.ofContent chars).name⟩ = .ok (some .finish, opened) := by
        simp only [readPiece, if_true]
      -- What is inside is read with the element open, up to its end tag.
      rcases ih opened hscope rest hrest r with ⟨events, found, hspells, hfound, hevents⟩
      rcases ihInner (⟨(Tag.ofContent chars).name, inside⟩ :: opened) rfl within hwithin
        (r.behind (⟨last, .endTag (Tag.ofContent chars).name⟩ :: rest)) with
        ⟨inward, foundInside, hspellsInside, hfoundInside, heventsInside⟩
      refine ⟨_, _, .element offset last placed hspellsInside hspells, ?_, ?_⟩
      · rw [Node.unplacedAll, Node.unplaced, hplaced, hfoundInside, hfound]
      · have hfirst := eventsOver_cons hstart
          ((r.behind (⟨last, .endTag (Tag.ofContent chars).name⟩ :: rest)).behind within)
        have hlast := (eventsOver_cons hend (r.behind rest)).trans
          (congrArg (Reading.cons _) hevents)
        have hcons : r.behind (⟨last, .endTag (Tag.ofContent chars).name⟩ :: rest) =
            .cons ⟨last, .endTag (Tag.ofContent chars).name⟩ (r.behind rest) := rfl
        rw [heventsInside, hcons, hlast] at hfirst
        refine Eq.trans ?_ (hfirst.trans ?_)
        · simp only [Reading.cons, Reading.behind, List.cons_append, List.append_assoc]
        · simp only [Reading.cons, Reading.behind, List.cons_append, List.append_assoc]

end Events

end Markup

end PackageSymbols

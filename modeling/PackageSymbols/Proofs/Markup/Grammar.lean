import PackageSymbols.Proofs.Markup.Content

/-!
# The Grammar of Markup

What a text consists of is said here without a scanner: text up to a `<`, and markup
between brackets. In a tag every quote is closed and a `>` stands in quotes only. A
comment, character data and an instruction have a mark at the end, and the mark with
a `>` behind it is not found before. In a doctype every `<` has its `>`.

The scanners find the same, though they do not know what they look for from the
start. They take the first `>` that may be the last one, by what they have passed so
far, and only then ask how the markup begins. The two opinions differ where a mark at
the end overlaps with the beginning, as in `<!-->` and in `<?>`, which is why the mark
is looked for behind the beginning of a comment and in the whole of an instruction.

## Main definitions

* `IsQuoted`: A text that may stand in a tag.
* `IsMarkup`: What stands between brackets, and the piece that it is.
* `ConsistsOf`: A text and the pieces that it consists of.

## Theorems

* `isQuoted_iff`: The search for the end of a tag passes what may stand in it.
* `isClosedBy_iff`: The first `>` that closes is behind the first mark.
* `isMarkup_iff`: Markup is what the scanners find and take for a piece.
* `isCut_iff`: A text consists of what it is cut into.
-/

namespace PackageSymbols

namespace Markup

/-- A text in which quotes are closed and a `>` stands in quotes only. -/
inductive IsQuoted : List Char → Prop where
  /-- Nothing. -/
  | done : IsQuoted []
  /-- A character outside of quotes. -/
  | plain {c : Char} {rest : List Char} (hc : c ≠ '>' ∧ c ≠ '"' ∧ c ≠ '\'')
      (hrest : IsQuoted rest) : IsQuoted (c :: rest)
  /-- A text in quotes. -/
  | quoted {quote : Char} {value rest : List Char} (hquote : quote = '"' ∨ quote = '\'')
      (hvalue : ∀ c ∈ value, c ≠ quote) (hrest : IsQuoted rest) :
      IsQuoted (quote :: (value ++ quote :: rest))

/-- What stands between the brackets of markup, and the piece that it is. -/
inductive IsMarkup : List Char → Piece → Prop where
  /-- A comment. -/
  | comment {body : List Char} (hbody : ¬['-', '-', '>'] <:+: body ++ ['-', '-']) :
      IsMarkup (['!', '-', '-'] ++ (body ++ ['-', '-'])) .aside
  /-- Character data. -/
  | characterData {chars : List Char} (hchars : ¬[']', ']', '>'] <:+: chars ++ [']', ']']) :
      IsMarkup (['!', '[', 'C', 'D', 'A', 'T', 'A', '['] ++ (chars ++ [']', ']']))
        (.characterData chars)
  /-- An instruction or a declaration. -/
  | instruction {body : List Char} (hbody : ¬['?', '>'] <:+: '?' :: (body ++ ['?'])) :
      IsMarkup ('?' :: (body ++ ['?'])) .aside
  /-- A doctype: a word in any case, and a text that has more than separators in it and in which
      brackets are balanced. -/
  | doctype {word body : List Char}
      (hword : word.map Char.toUpper = ['D', 'O', 'C', 'T', 'Y', 'P', 'E'])
      (hname : ∃ c ∈ body, isSeparator c = false) (hbalance : body.count '<' = body.count '>')
      (hfirst : ∀ less more, body = less ++ '>' :: more → less.count '<' ≠ less.count '>') :
      IsMarkup ('!' :: word ++ body) .aside
  /-- A tag. -/
  | tag {content : List Char} (hstart : ∀ c ∈ content.head?, c ≠ '!' ∧ c ≠ '?')
      (hquoted : IsQuoted content) : IsMarkup content (tagPiece content)

/-- A text and the pieces that it consists of. -/
inductive ConsistsOf : List Char → List Piece → Prop where
  /-- Nothing. -/
  | done : ConsistsOf [] []
  /-- A run of text, up to markup or the end. -/
  | text {run rest : List Char} {ps : List Piece} (hne : run ≠ []) (hrun : ∀ c ∈ run, c ≠ '<')
      (hends : EndsText rest) (hrest : ConsistsOf rest ps) :
      ConsistsOf (run ++ rest) (.text run :: ps)
  /-- Markup. -/
  | markup {content rest : List Char} {piece : Piece} {ps : List Piece}
      (hmarkup : IsMarkup content piece) (hrest : ConsistsOf rest ps) :
      ConsistsOf ('<' :: (content ++ '>' :: rest)) (piece :: ps)

section Quotes

theorem exists_of_crosses_quoted {quote : Char} {cs : List Char}
    (h : Crosses (some quote) cs none) :
    ∃ value rest, cs = value ++ quote :: rest ∧ (∀ c ∈ value, c ≠ quote) ∧
      Crosses none rest none := by
  induction cs with
  | nil => exact absurd h (Option.some_ne_none quote)
  | cons c cs ih =>
      have hrest := h.2
      rw [nextQuote] at hrest
      by_cases hc : c = quote
      · rw [if_pos hc] at hrest
        exact ⟨[], cs, congrArg (· :: cs) hc, List.forall_mem_nil _, hrest⟩
      · rw [if_neg hc] at hrest
        rcases ih hrest with ⟨value, rest, rfl, hvalue, hrest⟩
        exact ⟨c :: value, rest, rfl, List.forall_mem_cons.mpr ⟨hc, hvalue⟩, hrest⟩

/-- The search for the end of a tag passes a text if quotes are closed in it and no `>` is outside
    of them. -/
theorem isQuoted_iff {content : List Char} : IsQuoted content ↔ Crosses none content none := by
  constructor
  · intro h
    induction h with
    | done => rfl
    | plain hc _ ih =>
        refine ⟨fun he => hc.1 he.1, ?_⟩
        rw [nextQuote, if_neg (not_or.mpr hc.2)]
        exact ih
    | @quoted quote value rest hquote hvalue _ ih =>
        have hbracket : quote ≠ '>' := by
          rcases hquote with rfl | rfl
          · decide
          · decide
        refine ⟨fun he => hbracket he.1, ?_⟩
        rw [nextQuote, if_pos hquote]
        refine (crosses_value hvalue).append ⟨fun he => Option.some_ne_none quote he.2, ?_⟩
        rw [nextQuote, if_pos rfl]
        exact ih
  · intro h
    -- A quote may be closed far behind, so the induction is on the length.
    induction hn : content.length using Nat.strong_induction_on generalizing content with
    | _ n ih =>
      cases content with
      | nil => exact .done
      | cons c cs =>
          have hrest := h.2
          rw [nextQuote] at hrest
          rw [List.length_cons] at hn
          by_cases hc : c = '"' ∨ c = '\''
          · rw [if_pos hc] at hrest
            rcases exists_of_crosses_quoted hrest with ⟨value, rest, rfl, hvalue, hrest⟩
            rw [List.length_append, List.length_cons] at hn
            exact .quoted hc hvalue (ih _ (by omega) hrest rfl)
          · rw [if_neg hc] at hrest
            rw [not_or] at hc
            exact .plain ⟨fun he => h.1 ⟨he, rfl⟩, hc⟩ (ih _ (by omega) hrest rfl)

end Quotes

section Closings

/-- A `>` behind a front that has none is behind the front. -/
theorem exists_of_append_eq {front body less more : List Char} (hfront : '>' ∉ front)
    (h : front ++ body = less ++ '>' :: more) :
    ∃ behind, less = front ++ behind ∧ body = behind ++ '>' :: more := by
  rcases List.append_eq_append_iff.mp h with ⟨behind, hless, hbody⟩ | ⟨inside, rfl, hmore⟩
  · exact ⟨behind, hless, hbody⟩
  · cases inside with
    | nil => exact ⟨[], (List.append_nil _).symm ▸ (List.append_nil _).symm, hmore.symm⟩
    | cons c inside =>
        rw [List.cons_append, List.cons.injEq] at hmore
        exact absurd (List.mem_append_right less (hmore.1 ▸ List.mem_cons_self)) hfront

/-- The first `>` that closes markup is behind the first mark at its end, if those that close it
    are the ones with such a mark in front, looked for behind the beginning. -/
theorem isClosedBy_iff {closes : List Char → Bool} {front mark : List Char} (hfront : '>' ∉ front)
    (hcloses : ∀ cs, closes (front ++ cs).reverse = true ↔ mark <:+ cs) {cs : List Char} :
    IsClosedBy closes (front ++ cs) ↔ mark <:+ cs ∧ ¬mark ++ ['>'] <:+: cs := by
  refine and_congr (hcloses cs) ?_
  constructor
  · rintro hfirst ⟨less, more, rfl⟩
    have hopen := hfirst (front ++ (less ++ mark)) more (by simp)
    rw [(hcloses _).mpr (List.suffix_append less mark)] at hopen
    cases hopen
  · intro hnone less more hless
    rcases exists_of_append_eq hfront hless with ⟨behind, rfl, rfl⟩
    refine Bool.eq_false_iff.mpr fun hclosed => hnone ?_
    rcases (hcloses behind).mp hclosed with ⟨inside, rfl⟩
    exact ⟨inside, more, by simp⟩

theorem closesComment_cons_cons (c d : Char) (seen : List Char) :
    closesComment (c :: d :: seen) = true ↔ c = '-' ∧ d = '-' ∧ 2 < seen.length := by
  constructor
  · intro h
    rw [closesComment.eq_def] at h
    split at h
    · next heq =>
        simp only [List.cons.injEq] at heq
        exact ⟨heq.1, heq.2.1, heq.2.2 ▸ of_decide_eq_true h⟩
    · cases h
  · rintro ⟨rfl, rfl, h⟩
    exact decide_eq_true h

/-- Behind its beginning a comment is closed by two dashes and a `>`. -/
theorem closesComment_iff (cs : List Char) :
    closesComment (['!', '-', '-'] ++ cs).reverse = true ↔ ['-', '-'] <:+ cs := by
  rw [List.reverse_append, ← List.reverse_prefix]
  rcases cs.reverse with _ | ⟨c, _ | ⟨d, rest⟩⟩
  · decide
  · -- The other dash would be one of the beginning, and this does not count.
    refine (closesComment_cons_cons c '-' _).trans ?_
    simp
  · refine (closesComment_cons_cons c d _).trans ?_
    simp [eq_comm]

theorem closesCharacterData_cons_cons (c d : Char) (seen : List Char) :
    closesCharacterData (c :: d :: seen) = true ↔ c = ']' ∧ d = ']' := by
  constructor
  · intro h
    rw [closesCharacterData.eq_def] at h
    split at h
    · next heq =>
        simp only [List.cons.injEq] at heq
        exact ⟨heq.1, heq.2.1⟩
    · cases h
  · rintro ⟨rfl, rfl⟩
    rfl

/-- Behind its beginning character data is closed by two brackets and a `>`. -/
theorem closesCharacterData_iff (cs : List Char) :
    closesCharacterData (['!', '[', 'C', 'D', 'A', 'T', 'A', '['] ++ cs).reverse = true ↔
      [']', ']'] <:+ cs := by
  rw [List.reverse_append, ← List.reverse_prefix]
  rcases cs.reverse with _ | ⟨c, _ | ⟨d, rest⟩⟩
  · decide
  · refine (closesCharacterData_cons_cons c '[' _).trans ?_
    simp
  · refine (closesCharacterData_cons_cons c d _).trans ?_
    simp [eq_comm]

/-- An instruction is closed by a question mark and a `>`. -/
theorem closesInstruction_iff (cs : List Char) :
    closesInstruction ([] ++ cs).reverse = true ↔ ['?'] <:+ cs := by
  rw [List.nil_append, ← List.reverse_prefix]
  rcases cs.reverse with _ | ⟨c, rest⟩
  · decide
  · by_cases hc : c = '?'
    · rw [hc]
      simp [closesInstruction]
    · have hopen : closesInstruction (c :: rest) = false := by
        rw [closesInstruction.eq_def]
        split
        · next heq => exact absurd (List.cons.inj heq).1 hc
        · rfl
      rw [hopen]
      simp [Ne.symm hc]

/-- A doctype is closed where its brackets are balanced, and behind a front that has none of them
    the rest has to be. -/
theorem isClosedBy_closesDoctype_iff {front body : List Char} (hless : '<' ∉ front)
    (hmore : '>' ∉ front) :
    IsClosedBy closesDoctype (front ++ body) ↔ body.count '<' = body.count '>' ∧
      ∀ less more, body = less ++ '>' :: more → less.count '<' ≠ less.count '>' := by
  have hcloses : ∀ cs,
      closesDoctype (front ++ cs).reverse = true ↔ cs.count '<' = cs.count '>' := by
    intro cs
    rw [closesDoctype, beq_iff_eq, List.count_reverse, List.count_reverse, List.count_append,
      List.count_append, List.count_eq_zero_of_not_mem hless, List.count_eq_zero_of_not_mem hmore,
      Nat.zero_add, Nat.zero_add]
  refine and_congr (hcloses body) ?_
  constructor
  · rintro hfirst less more rfl hbalance
    have hopen := hfirst (front ++ less) more (by rw [List.append_assoc])
    rw [(hcloses less).mpr hbalance] at hopen
    cases hopen
  · intro hfirst less more hsplit
    rcases exists_of_append_eq hmore hsplit with ⟨behind, rfl, hbody⟩
    exact Bool.eq_false_iff.mpr fun hclosed =>
      hfirst behind more hbody ((hcloses behind).mp hclosed)

end Closings

section Beginnings

theorem eq_or_of_toUpper_eq {c upper : Char} (h : c.toUpper = upper) :
    c = upper ∨ 97 ≤ c.toNat ∧ c.toNat = upper.toNat + 32 := by
  delta Char.toUpper at h
  split at h
  · next hlower =>
      subst h
      have hfirst : 97 ≤ c.val.toNat := hlower.1
      have hlast : c.val.toNat ≤ 122 := hlower.2
      -- The distance is added to the word, which turns over.
      have hdistance : ('A'.val - 'a'.val).toNat = 4294967264 := by decide
      refine Or.inr ⟨hfirst, ?_⟩
      show c.val.toNat = (c.val + ('A'.val - 'a'.val)).toNat + 32
      rw [UInt32.toNat_add, hdistance]
      omega
  · exact Or.inl h

/-- The first character tells tags, instructions and the rest apart. -/
theorem head_of_ofStart {c : Char} {cs : List Char} {kind : Kind}
    (h : Kind.ofStart (c :: cs) = some kind) :
    (kind = .tag → c ≠ '!' ∧ c ≠ '?') ∧ (kind = .instruction → c = '?') := by
  by_cases hquestion : c = '?'
  · subst hquestion
    cases h
    exact ⟨fun hkind => Kind.noConfusion hkind, fun _ => rfl⟩
  · by_cases hbang : c = '!'
    · subst hbang
      cases cs with
      | nil => cases h
      | cons d cs =>
          rw [ofStart_bang] at h
          split at h
          · cases h
            exact ⟨fun hkind => Kind.noConfusion hkind, fun hkind => Kind.noConfusion hkind⟩
          · split at h
            · cases h
              exact ⟨fun hkind => Kind.noConfusion hkind, fun hkind => Kind.noConfusion hkind⟩
            · split at h
              · cases h
                exact ⟨fun hkind => Kind.noConfusion hkind, fun hkind => Kind.noConfusion hkind⟩
              · cases h
    · rw [ofStart_eq_tag hbang hquestion] at h
      cases h
      exact ⟨fun _ => ⟨hbang, hquestion⟩, fun hkind => Kind.noConfusion hkind⟩

end Beginnings

section Kinds

variable {content : List Char} {piece : Piece}

theorem dropLast_dropLast_append (chars : List Char) :
    (chars ++ [']', ']']).dropLast.dropLast = chars := by
  rw [List.append_cons, List.dropLast_concat, List.dropLast_concat]

/-- The word of a doctype has no brackets, and it begins as the kind is told by. -/
theorem exists_of_doctype {word : List Char}
    (h : word.map Char.toUpper = ['D', 'O', 'C', 'T', 'Y', 'P', 'E']) :
    '<' ∉ '!' :: word ∧ '>' ∉ '!' :: word ∧ ∃ d more, (d = 'D' ∨ d = 'd') ∧ word = d :: more := by
  have hkept : ∀ c : Char, c ∈ '!' :: word →
      c.toUpper ∈ ['!', 'D', 'O', 'C', 'T', 'Y', 'P', 'E'] := by
    intro c hc
    rw [← h]
    exact List.mem_map_of_mem (f := Char.toUpper) hc
  rcases List.map_eq_cons_iff.mp h with ⟨d, more, rfl, hd, _⟩
  refine ⟨fun hmem => absurd (hkept _ hmem) (by decide), fun hmem => absurd (hkept _ hmem)
    (by decide), d, more, ?_, rfl⟩
  rcases eq_or_of_toUpper_eq hd with hd | ⟨_, hd⟩
  · exact Or.inl hd
  · exact Or.inr (Char.toNat_inj.mp hd)

theorem isMarkup_of_doctype (hencloses : Kind.doctype.Encloses content)
    (hpiece : Kind.doctype.piece content = .ok piece) : IsMarkup content piece := by
  simp only [Kind.piece] at hpiece
  split at hpiece
  · next hstart =>
      split at hpiece
      · cases hpiece
      · next hname =>
          cases hpiece
          rcases List.map_eq_cons_iff.mp hstart with ⟨bang, word, htake, hbang, hword⟩
          have hcontent := List.take_append_drop 8 content
          -- The mark is no letter, so it is the one that was asked for and no other case of it.
          have hmark : bang = '!' := by
            rcases eq_or_of_toUpper_eq hbang with hbang | ⟨hlower, hbang⟩
            · exact hbang
            · exact absurd (hbang ▸ hlower) (by decide)
          rw [htake, hmark] at hcontent
          rw [← hcontent] at hencloses ⊢
          rcases exists_of_doctype hword with ⟨hless, hmore, _⟩
          rcases (isClosedBy_closesDoctype_iff hless hmore).mp hencloses with ⟨hbalance, hfirst⟩
          rw [Bool.not_eq_true, List.all_eq_false] at hname
          rcases hname with ⟨c, hc, hletter⟩
          exact .doctype hword ⟨c, hc, Bool.eq_false_iff.mpr hletter⟩ hbalance hfirst
  · cases hpiece

theorem isMarkup_of_instruction (hkind : Kind.ofStart (content ++ ['>']) = some .instruction)
    (hencloses : Kind.instruction.Encloses content)
    (hpiece : Kind.instruction.piece content = .ok piece) : IsMarkup content piece := by
  simp only [Kind.piece] at hpiece
  split at hpiece
  · next hlength =>
      cases hpiece
      cases content with
      | nil => exact absurd hlength (by decide)
      | cons c cs =>
          have hmark : c = '?' := (head_of_ofStart hkind).2 rfl
          subst hmark
          rcases (@isClosedBy_iff closesInstruction [] ['?'] (by decide) closesInstruction_iff
            ('?' :: cs)).mp hencloses with ⟨⟨front, hfront⟩, hnone⟩
          -- The mark at the end is not the one at the beginning.
          cases front with
          | nil =>
              rw [← hfront] at hlength
              exact absurd hlength (by decide)
          | cons d body =>
              rw [List.cons_append, List.cons.injEq] at hfront
              rw [← hfront.2] at hnone ⊢
              exact .instruction hnone
  · cases hpiece

/-- What a scanner finds and what begins like its kind is markup. -/
theorem isMarkup_of_encloses {kind : Kind} (hkind : Kind.ofStart (content ++ ['>']) = some kind)
    (hencloses : kind.Encloses content) (hpiece : kind.piece content = .ok piece) :
    IsMarkup content piece := by
  cases kind with
  | comment =>
      simp only [Kind.piece] at hpiece
      split at hpiece
      · next hstart =>
          cases hpiece
          rcases Option.isSome_iff_exists.mp hstart with ⟨cs, hcs⟩
          rw [dropStart?_eq_some hcs] at hencloses ⊢
          rcases (isClosedBy_iff (by decide) closesComment_iff).mp hencloses with
            ⟨⟨body, rfl⟩, hbody⟩
          exact .comment hbody
      · cases hpiece
  | characterData =>
      simp only [Kind.piece] at hpiece
      split at hpiece
      · next cs hcs =>
          cases hpiece
          rw [dropStart?_eq_some hcs] at hencloses ⊢
          rcases (isClosedBy_iff (by decide) closesCharacterData_iff).mp hencloses with
            ⟨⟨chars, rfl⟩, hchars⟩
          rw [dropLast_dropLast_append]
          exact .characterData hchars
      · cases hpiece
  | doctype => exact isMarkup_of_doctype hencloses hpiece
  | instruction => exact isMarkup_of_instruction hkind hencloses hpiece
  | tag =>
      cases hpiece
      refine .tag ?_ (isQuoted_iff.mpr hencloses)
      intro c hc
      cases content with
      | nil => cases hc
      | cons d cs =>
          cases hc
          exact (head_of_ofStart hkind).1 rfl

/-- Markup is found by the scanner of its kind, and begins like it. -/
theorem exists_of_isMarkup (h : IsMarkup content piece) :
    ∃ kind, Kind.ofStart (content ++ ['>']) = some kind ∧ kind.Encloses content ∧
      kind.piece content = .ok piece := by
  cases h with
  | comment hbody =>
      exact ⟨.comment, rfl, (isClosedBy_iff (by decide) closesComment_iff).mpr
        ⟨List.suffix_append _ _, hbody⟩, rfl⟩
  | @characterData chars hchars =>
      refine ⟨.characterData, rfl, (isClosedBy_iff (by decide) closesCharacterData_iff).mpr
        ⟨List.suffix_append _ _, hchars⟩, ?_⟩
      exact congrArg (fun cs => Except.ok (Piece.characterData cs))
        (dropLast_dropLast_append chars)
  | @instruction body hbody =>
      refine ⟨.instruction, rfl, (isClosedBy_iff (by decide) closesInstruction_iff).mpr
        ⟨List.suffix_append ('?' :: body) ['?'], hbody⟩, ?_⟩
      rw [Kind.piece, if_pos (by simp)]
  | @doctype word body hword hname hbalance hfirst =>
      rcases exists_of_doctype hword with ⟨hless, hmore, d, more, hd, rfl⟩
      refine ⟨.doctype, ?_, (isClosedBy_closesDoctype_iff hless hmore).mpr ⟨hbalance, hfirst⟩, ?_⟩
      · rcases hd with rfl | rfl
        · rfl
        · rfl
      · have hlength : ('!' :: d :: more).length = 8 := by
          rw [List.length_cons, ← List.length_map (f := Char.toUpper), hword]
          rfl
        have hletter : body.all isSeparator = false := by
          rcases hname with ⟨c, hc, hletter⟩
          exact List.all_eq_false.mpr ⟨c, hc, Bool.eq_false_iff.mp hletter⟩
        have hstart : ('!' :: d :: more).map Char.toUpper =
            ['!', 'D', 'O', 'C', 'T', 'Y', 'P', 'E'] := congrArg ('!' :: ·) hword
        simp only [Kind.piece, List.take_left' hlength, List.drop_left' hlength]
        rw [if_pos hstart, hletter, if_neg Bool.false_ne_true]
  | tag hstart hquoted =>
      refine ⟨.tag, ?_, isQuoted_iff.mp hquoted, rfl⟩
      cases content with
      | nil => rfl
      | cons c cs => exact ofStart_eq_tag (hstart c rfl).1 (hstart c rfl).2 _

/-- Markup is what a scanner finds and what begins like its kind. -/
theorem isMarkup_iff : IsMarkup content piece ↔ ∃ kind,
    Kind.ofStart (content ++ ['>']) = some kind ∧ kind.Encloses content ∧
      kind.piece content = .ok piece := by
  constructor
  · exact exists_of_isMarkup
  · rintro ⟨kind, hkind, hencloses, hpiece⟩
    exact isMarkup_of_encloses hkind hencloses hpiece

end Kinds

section Texts

/-- Markup in front of a text is cut off in one piece. -/
theorem IsMarkup.exists_split {content : List Char} {piece : Piece} (h : IsMarkup content piece)
    (rest : List Char) : ∃ kind, Kind.ofStart (content ++ '>' :: rest) = some kind ∧
      kind.split (content ++ '>' :: rest) = some (content, rest) ∧
      kind.piece content = .ok piece := by
  rcases isMarkup_iff.mp h with ⟨kind, hkind, hencloses, hpiece⟩
  exact ⟨kind, (Kind.ofStart_closed content rest []).trans hkind,
    Kind.split_eq_some_iff.mpr ⟨rfl, hencloses⟩, hpiece⟩

/-- A text consists of the pieces that it is cut into. -/
theorem isCut_iff {cs : List Char} {ps : List Piece} : IsCut cs ps ↔ ConsistsOf cs ps := by
  constructor
  · intro h
    induction h with
    | done => exact .done
    | text hne hrun hends _ ih => exact .text hne hrun hends ih
    | @markup kind cs content rest piece ps hkind hsplit hpiece _ ih =>
        rcases Kind.split_eq_some_iff.mp hsplit with ⟨rfl, hencloses⟩
        have hstart := (Kind.ofStart_closed content [] rest).trans hkind
        exact .markup (isMarkup_iff.mpr ⟨kind, hstart, hencloses, hpiece⟩) ih
  · intro h
    induction h with
    | done => exact .done
    | text hne hrun hends _ ih => exact .text hne hrun hends ih
    | @markup content rest piece ps hmarkup _ ih =>
        rcases hmarkup.exists_split rest with ⟨kind, hkind, hsplit, hpiece⟩
        exact .markup hkind hsplit hpiece ih

end Texts

end Markup

end PackageSymbols

import PackageSymbols.Proofs.Guid.Spellings

/-!
# Accepted GUIDs

Which texts are read as a GUID is said here from the other side. The reader of the
registry form takes what stands between blanks and asks for the form as it is. The
reader of the structure form takes out all blanks before it looks for tokens, and
no trace is left of where they were. So it cannot tell blanks between two tokens,
which mean nothing, from blanks inside of a field, which no documented spelling
has.

A text is accepted, then, if it is a literal, or if it is the characters of the
structure form in their order with blanks between any two of them. The second kind
is wider than it is documented, by the texts that tear a field and by nothing else.
Whatever is not accepted is given back as it was, with its blanks.

## Main definitions

* `Guid.IsScattered`: A text is the structure form with blanks between any of its
  characters.

## Theorems

* `Guid.ofCompact?_eq_some_iff`: Without blanks only the structure form is read.
* `Guid.parse_eq_ok_iff`: The texts that are read.
* `Guid.not_forall_isLiteral`: Not all of them are literals.
* `Guid.parseWith_eq_ok_iff`: The texts that are read, whoever reads the text
  between the braces, and what is wrong with those that are no literals.
-/

namespace PackageSymbols

namespace Guid

open Text

/-- Whether a text is the structure form of a GUID with blanks between any of its characters. -/
def IsScattered (g : Guid) (text : String) : Prop :=
  ∃ tokens, g.IsStructureForm tokens ∧ IsSpaced (tokens.flatten.map fun c => [c]) text.toList

section Structure

/-- The digits of a field bound it as its width does. -/
theorem IsField.lt_pow {field : Nat × Nat} {token : List Char} (h : IsField field token) :
    field.2 < 2 ^ field.1 := by
  rcases h with ⟨_, digits, _, _, hnumeral, hlength⟩
  calc field.2 < 16 ^ digits.length := hnumeral.lt_pow (by decide)
    _ = 2 ^ (4 * digits.length) := by rw [Nat.pow_mul]
    _ ≤ 2 ^ field.1 := Nat.pow_le_pow_right (by decide) hlength

/-- What is read as a field is one. -/
theorem markedHex?_eq_some {width value : Nat} {cs rest : List Char}
    (h : markedHex? width cs = some (value, rest)) :
    ∃ token, IsField (4 * width, value) token ∧ cs = token ++ rest := by
  rw [markedHex?.eq_def] at h
  split at h
  · next x more =>
      by_cases hx : x = 'x' ∨ x = 'X'
      · rw [if_pos hx] at h
        by_cases hlength : (more.takeWhile (isDigit 16)).length ≤ width
        · simp only [if_pos hlength, Option.map_eq_some_iff, Prod.mk.injEq] at h
          rcases h with ⟨n, hn, rfl, rfl⟩
          refine ⟨'0' :: x :: more.takeWhile (isDigit 16), ⟨x, _, hx, rfl,
            (ofDigits?_eq_some_iff (le_refl 16)).mp hn, Nat.mul_le_mul_left 4 hlength⟩, ?_⟩
          rw [List.cons_append, List.cons_append, List.takeWhile_append_dropWhile]
        · simp only [if_neg hlength, reduceCtorEq] at h
      · rw [if_neg hx] at h
        exact absurd h (by simp only [reduceCtorEq, not_false_eq_true])
  · exact absurd h (by simp only [reduceCtorEq, not_false_eq_true])

/-- What is read as bytes behind commas is that. -/
theorem byteFields?_eq_some {count : Nat} {cs rest : List Char} {bytes : List (Nat × Nat)}
    (h : byteFields? count cs = some (bytes, rest)) :
    bytes.map Prod.fst = List.replicate count 8 ∧ ∃ tokens, List.Forall₂ IsField bytes tokens ∧
      cs = tokens.flatMap (fun token => ',' :: token) ++ rest := by
  induction count generalizing cs bytes with
  | zero =>
      rw [byteFields?, Option.some.injEq, Prod.mk.injEq] at h
      rw [← h.1, ← h.2]
      exact ⟨rfl, [], .nil, rfl⟩
  | succ count ih =>
      simp only [byteFields?, Option.bind_eq_bind, Option.bind_eq_some_iff, Prod.exists,
        expect?_eq_some_iff, Option.pure_def, Option.some.injEq, Prod.mk.injEq] at h
      rcases h with ⟨_, rfl, value, behind, hvalue, more, _, hmore, rfl, rfl⟩
      rcases markedHex?_eq_some hvalue with ⟨token, htoken, rfl⟩
      rcases ih hmore with ⟨hwidths, tokens, htokens, rfl⟩
      refine ⟨congrArg (List.cons 8) hwidths, token :: tokens, .cons htoken htokens, ?_⟩
      rw [List.flatMap_cons, List.append_assoc, List.cons_append]

/-- Tokens of fields of the right widths are those of the GUID that is made up of the fields. -/
theorem isStructureForm_ofFields {parts : List (Nat × Nat)} {a b c : List Char}
    {bytes : List (List Char)} (h : List.Forall₂ IsField parts (a :: b :: c :: bytes))
    (hwidths : parts.map Prod.fst = [32, 16, 16, 8, 8, 8, 8, 8, 8, 8, 8]) :
    (ofFields parts).IsStructureForm (structureTokens a b c bytes) := by
  have hbound : ∀ part ∈ parts, part.2 < 2 ^ part.1 := by
    intro part hpart
    rcases exists_of_mem_forall₂ h.flip hpart with ⟨token, _, htoken⟩
    exact IsField.lt_pow htoken
  have hfields := fields_ofFields hbound (by rw [hwidths]; rfl)
  rw [hwidths] at hfields
  exact ⟨a, b, c, bytes, hfields.symm ▸ h, rfl⟩

/-- Without blanks the structure form is read and nothing else. -/
theorem ofCompact?_eq_some_iff {g : Guid} {cs : List Char} :
    ofCompact? cs = some g ↔ ∃ tokens, g.IsStructureForm tokens ∧ cs = tokens.flatten := by
  constructor
  · intro h
    simp only [ofCompact?, Option.bind_eq_bind, Option.bind_eq_some_iff, Prod.exists,
      expect?_eq_some_iff] at h
    rcases h with ⟨_, rfl, x, _, hx, _, rfl, y, _, hy, _, rfl, z, _, hz, _, rfl, _, rfl, byte, _,
      hbyte, others, _, hothers, _, rfl, rest, rfl, hg⟩
    -- Nothing may be left behind the last brace.
    have hrest : rest = [] := by
      by_contra hne
      rw [if_neg (by rw [List.isEmpty_iff]; exact hne)] at hg
      exact absurd hg (by simp only [reduceCtorEq, not_false_eq_true])
    rw [hrest, List.isEmpty_nil, if_pos rfl, Option.some.injEq] at hg
    -- Each reader tells the token that it took off, from the first field to the last.
    rcases markedHex?_eq_some hx with ⟨a, ha, rfl⟩
    rcases markedHex?_eq_some hy with ⟨b, hb, rfl⟩
    rcases markedHex?_eq_some hz with ⟨c, hc, rfl⟩
    rcases markedHex?_eq_some hbyte with ⟨first, hfirst, rfl⟩
    rcases byteFields?_eq_some hothers with ⟨hwidths, more, hmore, rfl⟩
    have hform := isStructureForm_ofFields (.cons ha (.cons hb (.cons hc (.cons hfirst hmore))))
      (congrArg ([32, 16, 16, 8] ++ ·) hwidths)
    refine ⟨structureTokens a b c (first :: more), hg ▸ hform, ?_⟩
    rw [flatten_structureTokens, hrest]
  · rintro ⟨tokens, htokens, rfl⟩
    exact ofCompact?_of_isStructureForm htokens

end Structure

section Texts

variable {g : Guid} {text : String}

theorem IsScattered.exists_filter (h : g.IsScattered text) :
    ∃ tokens, g.IsStructureForm tokens ∧
      text.toList.filter (fun c => !isBlank c) = tokens.flatten := by
  rcases h with ⟨tokens, htokens, hspaced⟩
  have hflat : (tokens.flatten.map fun c => [c]).flatten = tokens.flatten := by
    rw [← List.flatMap_def, List.flatMap_singleton']
  refine ⟨tokens, htokens, ?_⟩
  rw [hspaced.filter (by rw [hflat]; exact htokens.not_isBlank), hflat]

/-- A text is read as a GUID if it is a literal of it or its structure form in scattered
    characters. -/
theorem parse_eq_ok_iff : parse text = .ok g ↔ g.IsLiteral text ∨ g.IsScattered text := by
  constructor
  · intro h
    cases hregistry : ofRegistry? (trimChars text.toList) with
    | some other =>
        simp only [parse, hregistry] at h
        rw [show other = g from Except.ok.inj h] at hregistry
        exact Or.inl (Or.inl ⟨_, ofRegistry?_eq_some_iff.mp hregistry, isSpaced_trimChars _⟩)
    | none =>
        have hcompact : ofCompact? (text.toList.filter fun c => !isBlank c) = some g := by
          rw [← filter_trimChars]
          simp only [parse, hregistry] at h
          split at h
          · next hsome => exact Except.ok.inj h ▸ hsome
          · exact absurd h (by simp only [reduceCtorEq, not_false_eq_true])
        rcases ofCompact?_eq_some_iff.mp hcompact with ⟨tokens, htokens, hflat⟩
        exact Or.inr ⟨tokens, htokens, hflat ▸ isSpaced_filter text.toList⟩
  · rintro (hliteral | hscattered)
    · exact parse_of_literal hliteral
    · rcases hscattered.exists_filter with ⟨tokens, htokens, hfilter⟩
      exact parse_of_isStructureForm htokens hfilter

theorem parse_eq_error (h : ∀ g, parse text ≠ .ok g) : parse text = .error ⟨text⟩ := by
  simp only [parse] at h ⊢
  split
  · next g hread =>
      rw [hread] at h
      exact absurd rfl (h g)
  · rfl

/-- A scattered text is a literal unless a token is torn in it. -/
theorem IsScattered.isLiteral_or_isTorn (h : g.IsScattered text) :
    g.IsLiteral text ∨
      ∃ tokens, g.IsStructureForm tokens ∧ ∃ token ∈ tokens, IsTorn token text.toList := by
  rcases h with ⟨tokens, htokens, hspaced⟩
  rcases isSpaced_or_isTorn hspaced with hspaced | htorn
  · exact Or.inl (Or.inr ⟨tokens, htokens, hspaced⟩)
  · exact Or.inr ⟨tokens, htokens, htorn⟩

end Texts

section Torn

/-- The structure form of a GUID with a blank in the mark of its first field. -/
def tornLiteral : String :=
  "\x7b0 x1,0x2,0x3,\x7b0x4,0x5,0x6,0x7,0x8,0x9,0xa,0xb\x7d\x7d"

theorem isScattered_tornLiteral :
    (⟨0x00000001000200030405060708090A0B⟩ : Guid).IsScattered tornLiteral := by
  let bytes := ["0x4", "0x5", "0x6", "0x7", "0x8", "0x9", "0xa", "0xb"].map String.toList
  let tokens := structureTokens "0x1".toList "0x2".toList "0x3".toList bytes
  have hfilter : tornLiteral.toList.filter (fun c => !isBlank c) = tokens.flatten := by decide
  refine ⟨tokens, ⟨_, _, _, bytes, ?_, rfl⟩, hfilter ▸ isSpaced_filter tornLiteral.toList⟩
  -- The fields, told by their tokens.
  repeat' apply List.Forall₂.cons
  all_goals first
    | exact .nil
    | exact isField_of_ofDigits? (by decide) (by decide) (by decide)

/-- The torn text is a literal of no GUID: it has commas, and where its first field would have to
    begin there is a zero with no mark behind it. -/
theorem not_isLiteral_tornLiteral (g : Guid) : ¬g.IsLiteral tornLiteral := by
  have hchars : tornLiteral.toList =
      '\x7b' :: '0' :: ' ' :: "x1,0x2,0x3,\x7b0x4,0x5,0x6,0x7,0x8,0x9,0xa,0xb\x7d\x7d".toList := by
    decide
  have hblank : ∀ {c : Char} {gap rest cs : List Char}, isBlank c = false →
      (∀ b ∈ gap, isBlank b = true) → c :: cs = gap ++ rest → gap = [] := by
    intro c gap rest cs hc hgap heq
    rcases List.cons_eq_append_iff.mp heq with ⟨hnil, _⟩ | ⟨more, rfl, _⟩
    · exact hnil
    · rw [hgap c List.mem_cons_self] at hc
      exact absurd hc (by decide)
  rintro (⟨form, hform, hspaced⟩ | ⟨_, ⟨a, b, c, bytes, hfields, rfl⟩, hspaced⟩)
  · rcases isTrimmed_of_isRegistryForm hform with ⟨hne, htrimmed⟩
    have hcomma : ',' ∈ trimChars tornLiteral.toList := by decide
    rw [hspaced.trimChars hne htrimmed] at hcomma
    exact hform.comma_not_mem hcomma
  · rw [hchars] at hspaced
    rcases isSpaced_cons_iff.mp hspaced with ⟨gap, rest, hgap, hopen, hrest⟩
    rw [hblank (by decide) hgap hopen, List.nil_append, List.singleton_append,
      List.cons.injEq] at hopen
    rw [← hopen.2] at hrest
    rcases isSpaced_cons_iff.mp hrest with ⟨gap, behind, hgap, hfirst, _⟩
    rcases (List.forall₂_cons.mp hfields).1 with ⟨x, digits, hx, rfl, _⟩
    rw [hblank (by decide) hgap hfirst, List.nil_append, List.cons_append, List.cons_append,
      List.cons.injEq, List.cons.injEq] at hfirst
    rw [← hfirst.2.1] at hx
    exact absurd hx (by decide)

/-- Not every text that is read as a GUID is a literal of one. -/
theorem not_forall_isLiteral :
    ¬∀ text, (∃ g, parse text = .ok g) → ∃ g : Guid, g.IsLiteral text := by
  intro h
  rcases h tornLiteral ⟨_, parse_eq_ok_iff.mpr (Or.inr isScattered_tornLiteral)⟩ with ⟨g, hg⟩
  exact not_isLiteral_tornLiteral g hg

end Torn

/-- Read as a GUID are its literals and the scattered texts of its structure form, which differ from
    its literals by tokens that are torn. From every other text comes an error with the text as it
    is. This is so whoever reads the text between the braces. -/
theorem parseWith_eq_ok_iff {read? : List Char → Option Guid} (hread : ReadsHyphenated read?)
    (text : String) :
    (∀ g, parseWith read? text = .ok g ↔ g.IsLiteral text ∨ g.IsScattered text) ∧
    ((∀ g : Guid, ¬g.IsLiteral text ∧ ¬g.IsScattered text) →
      parseWith read? text = .error ⟨text⟩) ∧
    ∀ g : Guid, g.IsScattered text → ¬g.IsLiteral text →
      ∃ tokens, g.IsStructureForm tokens ∧ ∃ token ∈ tokens, IsTorn token text.toList := by
  rw [parseWith_eq_parse hread]
  refine ⟨fun g => parse_eq_ok_iff, fun hnone => parse_eq_error fun g hg => ?_,
    fun g hscattered hliteral => hscattered.isLiteral_or_isTorn.resolve_left hliteral⟩
  exact (parse_eq_ok_iff.mp hg).elim (hnone g).1 (hnone g).2

/-- A text with a torn field is no literal and is read as if it were one. -/
theorem parseWith_eq_ok_iff_tornLiteral :
    ReadsHyphenated ofHyphenated? ∧
      (∀ g : Guid, ¬g.IsLiteral tornLiteral) ∧
      parseWith ofHyphenated? tornLiteral = .ok ⟨0x00000001000200030405060708090A0B⟩ :=
  ⟨readsHyphenated_ofHyphenated?, not_isLiteral_tornLiteral,
    ((parseWith_eq_ok_iff readsHyphenated_ofHyphenated? tornLiteral).1 _).mpr
      (Or.inr isScattered_tornLiteral)⟩

end Guid

end PackageSymbols

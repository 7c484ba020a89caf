import PackageSymbols.Proofs.Guid.Registry
import PackageSymbols.Proofs.Spacing

/-!
# Spellings of a GUID

A GUID has many literals. The registry form leaves the case of its digits open.
The structure form leaves more: a field may leave out the zeros in front, the
mark in front of it may be `0x` or `0X`, and blanks may stand between any two of
its tokens. All of them are read as the GUID that they spell, so two literals of
one GUID are never read as different values.

The two readers are tried one after the other, and only the second of them takes
out blanks. No literal is lost by this: in front of a comma the digits of a field end, so
the greedy scan takes exactly one field, and a text with a comma in it is no
registry form, so the first reader never takes away what the second has to read.

## Main definitions

* `Guid.IsField`: A token tells a field.
* `Guid.IsStructureForm`: The tokens of the structure form of a GUID.
* `Guid.IsLiteral`: A text is a literal of a GUID.

## Theorems

* `Guid.markedHex?_append`: A field is read up to what follows it.
* `Guid.IsStructureForm.exists_fields`: The structure form and its fields.
* `Guid.ofCompact?_of_isStructureForm`: The structure form is read.
* `Guid.parseWith_of_isLiteral`: Every literal of a GUID is read as this GUID.
-/

namespace PackageSymbols

namespace Guid

open Text

/-- Whether a token tells a field: a mark and digits behind it, of which there are at least one and
    not more than the width of the field allows. -/
def IsField (field : Nat × Nat) (token : List Char) : Prop :=
  ∃ x digits, (x = 'x' ∨ x = 'X') ∧ token = '0' :: x :: digits ∧
    IsNumeral 16 field.2 digits ∧ 4 * digits.length ≤ field.1

/-- The tokens of the structure form with given fields. -/
def structureTokens (a b c : List Char) (bytes : List (List Char)) : List (List Char) :=
  [['\x7b'], a, [','], b, [','], c, [','], ['\x7b']] ++ bytes.intersperse [','] ++
    [['\x7d'], ['\x7d']]

/-- Whether tokens are those of the structure form of a GUID. -/
def IsStructureForm (g : Guid) (tokens : List (List Char)) : Prop :=
  ∃ a b c bytes, List.Forall₂ IsField (g.fields [32, 16, 16, 8, 8, 8, 8, 8, 8, 8, 8])
    (a :: b :: c :: bytes) ∧ tokens = structureTokens a b c bytes

/-- Whether a text is a literal of a GUID: one of its forms, with blanks around it, and in the
    structure form between the tokens too. -/
def IsLiteral (g : Guid) (text : String) : Prop :=
  (∃ form, g.IsRegistryForm form ∧ IsSpaced [form] text.toList) ∨
    ∃ tokens, g.IsStructureForm tokens ∧ IsSpaced tokens text.toList

section Structure

/-- A field is read up to the first character behind it that is no digit. -/
theorem markedHex?_append {width value : Nat} {token : List Char}
    (h : IsField (4 * width, value) token) {c : Char} (hc : isDigit 16 c = false)
    (rest : List Char) : markedHex? width (token ++ c :: rest) = some (value, c :: rest) := by
  rcases h with ⟨x, digits, hx, rfl, hnumeral, hlength⟩
  have hdigits := hnumeral.isDigit (le_refl 16)
  rw [List.cons_append, List.cons_append, markedHex?, if_pos hx]
  simp only [takeWhile_append_cons hdigits hc, dropWhile_append_cons hdigits hc,
    if_pos (Nat.le_of_mul_le_mul_left hlength (by decide)),
    (ofDigits?_eq_some_iff (le_refl 16)).mpr hnumeral, Option.map_some]

/-- In front of a comma and of a character that is no digit the digits of a field end. -/
theorem exists_eq_cons (tokens : List (List Char)) {c : Char} (hc : isDigit 16 c = false)
    (rest : List Char) : ∃ d behind, isDigit 16 d = false ∧
      tokens.flatMap (fun token => ',' :: token) ++ c :: rest = d :: behind := by
  cases tokens with
  | nil => exact ⟨c, rest, hc, rfl⟩
  | cons token tokens => exact ⟨',', _, by decide, rfl⟩

/-- Bytes that each stand behind a comma are read up to what follows the last of them. -/
theorem byteFields?_append {bytes : List (Nat × Nat)} {tokens : List (List Char)}
    (h : List.Forall₂ IsField bytes tokens) (hwidth : ∀ byte ∈ bytes, byte.1 = 8) {c : Char}
    (hc : isDigit 16 c = false) (rest : List Char) :
    byteFields? bytes.length (tokens.flatMap (fun token => ',' :: token) ++ c :: rest) =
      some (bytes, c :: rest) := by
  induction h with
  | nil => rfl
  | @cons byte token bytes tokens hfirst _ ih =>
      have hrest := ih fun b hb => hwidth b (List.mem_cons_of_mem byte hb)
      -- Behind the token comes a comma or what ends the row, and neither is a digit.
      rcases exists_eq_cons tokens hc rest with ⟨d, behind, hd, heq⟩
      have hbyte : byte = (4 * 2, byte.2) := Prod.ext (hwidth byte List.mem_cons_self) rfl
      rw [hbyte] at hfirst ⊢
      have hread := markedHex?_append hfirst hd behind
      rw [← heq] at hread
      rw [List.length_cons, List.flatMap_cons, List.append_assoc, List.cons_append, byteFields?,
        expect?_cons]
      simp only [Option.bind_eq_bind, Option.bind_some, hread, hrest]
      rfl

theorem flatten_intersperse_comma (token : List Char) (tokens : List (List Char)) :
    ((token :: tokens).intersperse [',']).flatten =
      token ++ tokens.flatMap fun token => ',' :: token := by
  induction tokens generalizing token with
  | nil => simp
  | cons next tokens ih =>
      rw [List.intersperse_cons_cons, List.flatten_cons, List.flatten_cons, ih, List.flatMap_cons]
      rfl

theorem flatten_structureTokens (a b c first : List Char) (more : List (List Char)) :
    (structureTokens a b c (first :: more)).flatten =
      '\x7b' :: (a ++ ',' :: (b ++ ',' :: (c ++ ',' :: '\x7b' :: (first ++
        (more.flatMap (fun token => ',' :: token) ++ ['\x7d', '\x7d']))))) := by
  rw [structureTokens, List.flatten_append, List.flatten_append, flatten_intersperse_comma]
  simp

/-- The structure form and the fields that it tells: three in front of a comma each, a byte, and
    seven more behind a comma each. -/
theorem IsStructureForm.exists_fields {g : Guid} {tokens : List (List Char)}
    (h : g.IsStructureForm tokens) :
    ∃ x y z byte others a b c first more,
      IsField (32, x) a ∧ IsField (16, y) b ∧ IsField (16, z) c ∧ IsField (8, byte) first ∧
      List.Forall₂ IsField others more ∧ others.map Prod.fst = [8, 8, 8, 8, 8, 8, 8] ∧
      g = ofFields ((32, x) :: (16, y) :: (16, z) :: (8, byte) :: others) ∧
      tokens.flatten = '\x7b' :: (a ++ ',' :: (b ++ ',' :: (c ++ ',' :: '\x7b' :: (first ++
        (more.flatMap (fun token => ',' :: token) ++ ['\x7d', '\x7d']))))) := by
  rcases h with ⟨a, b, c, bytes, hfields, rfl⟩
  have hsum : [32, 16, 16, 8, 8, 8, 8, 8, 8, 8, 8].sum = 128 := rfl
  have hg := (g.ofFields_fields hsum).symm
  rw [fields, fieldsOf, fieldsOf, fieldsOf, fieldsOf] at hfields hg
  rcases List.forall₂_cons.mp hfields with ⟨ha, hbehind⟩
  rcases List.forall₂_cons.mp hbehind with ⟨hb, hbehind⟩
  rcases List.forall₂_cons.mp hbehind with ⟨hc, hbehind⟩
  rcases List.forall₂_cons_left_iff.mp hbehind with ⟨first, more, hfirst, hmore, rfl⟩
  exact ⟨_, _, _, _, _, a, b, c, first, more, ha, hb, hc, hfirst, hmore, map_fst_fieldsOf _ _, hg,
    flatten_structureTokens a b c first more⟩

/-- The structure form is read from its tokens. -/
theorem ofCompact?_of_isStructureForm {g : Guid} {tokens : List (List Char)}
    (h : g.IsStructureForm tokens) : ofCompact? tokens.flatten = some g := by
  rcases h.exists_fields with
    ⟨_, _, _, _, others, _, _, _, _, more, ha, hb, hc, hfirst, hmore, hwidths, rfl, htokens⟩
  have hbyte : ∀ byte ∈ others, byte.1 = 8 := by
    intro byte hbyte
    have hmem := List.mem_map_of_mem (f := Prod.fst) hbyte
    rw [hwidths] at hmem
    exact List.eq_of_mem_replicate (n := 7) hmem
  have hseven : others.length = 7 := by
    rw [← List.length_map (f := Prod.fst), hwidths]
    rfl
  have hcomma : isDigit 16 ',' = false := by decide
  have hbrace : isDigit 16 '\x7d' = false := by decide
  -- From the left, each field is read up to the comma or the brace behind it.
  have h8 := fun rest => @markedHex?_append 8 _ _ ha _ hcomma rest
  have h4 := fun rest => @markedHex?_append 4 _ _ hb _ hcomma rest
  have h4' := fun rest => @markedHex?_append 4 _ _ hc _ hcomma rest
  have h2 := fun rest => byteFields?_append hmore hbyte hbrace rest
  rcases exists_eq_cons more hbrace ['\x7d'] with ⟨d, behind, hd, heq⟩
  have h1 := @markedHex?_append 2 _ _ hfirst _ hd behind
  rw [← heq] at h1
  rw [hseven] at h2
  rw [htokens, ofCompact?]
  simp only [Option.bind_eq_bind, expect?_cons, Option.bind_some, h8, h4, h4', h1, h2,
    List.isEmpty_nil, if_true]
  rfl

theorem IsField.not_isBlank {field : Nat × Nat} {token : List Char} (h : IsField field token) :
    ∀ c ∈ token, isBlank c = false := by
  rcases h with ⟨x, digits, hx, rfl, hnumeral, _⟩
  have hmark : isBlank x = false := by
    rcases hx with rfl | rfl
    · decide
    · decide
  rw [List.forall_mem_cons, List.forall_mem_cons]
  exact ⟨by decide, hmark, hnumeral.not_isBlank (le_refl 16)⟩

/-- The tokens of the structure form hold no blank. -/
theorem IsStructureForm.not_isBlank {g : Guid} {tokens : List (List Char)}
    (h : g.IsStructureForm tokens) : ∀ c ∈ tokens.flatten, isBlank c = false := by
  rcases h.exists_fields with
    ⟨_, _, _, _, _, _, _, _, _, more, ha, hb, hc, hfirst, hmore, _, _, htokens⟩
  -- The bytes have a comma in front of each.
  have hbytes : ∀ c ∈ more.flatMap (fun token => ',' :: token), isBlank c = false := by
    intro c hmem
    rcases List.mem_flatMap.mp hmem with ⟨token, htoken, hc⟩
    rcases exists_of_mem_forall₂ hmore htoken with ⟨field, _, hfield⟩
    rcases List.mem_cons.mp hc with rfl | hc
    · decide
    · exact hfield.not_isBlank c hc
  have hopen : isBlank '\x7b' = false := by decide
  have hcomma : isBlank ',' = false := by decide
  have hclose : isBlank '\x7d' = false := by decide
  rw [htokens]
  simp only [List.forall_mem_cons, List.forall_mem_append]
  exact ⟨hopen, ha.not_isBlank, hcomma, hb.not_isBlank, hcomma, hc.not_isBlank, hcomma, hopen,
    hfirst.not_isBlank, hbytes, hclose, hclose, List.forall_mem_nil _⟩

end Structure

section Literals

/-- There is no comma in the registry form. -/
theorem IsRegistryForm.comma_not_mem {g : Guid} {cs : List Char} (h : g.IsRegistryForm cs) :
    ',' ∉ cs := by
  rcases h with ⟨inner, hinner, rfl⟩
  rcases isHyphenated_iff.mp hinner with
    ⟨_, _, _, _, _, as, bs, cs, ds, es, ha, hb, hc, hd, he, _, rfl⟩
  have hnone : ∀ {field : Nat × Nat} {digits : List Char}, IsGroup field digits → ',' ∉ digits := by
    intro field digits hgroup hmem
    exact absurd (hgroup.1.isDigit (le_refl 16) ',' hmem) (by decide)
  simp [hnone ha, hnone hb, hnone hc, hnone hd, hnone he]

/-- The structure form is no registry form, wherever its blanks are. -/
theorem ofRegistry?_of_isStructureForm {g : Guid} {tokens : List (List Char)} {cs : List Char}
    (h : g.IsStructureForm tokens) (hcs : cs.filter (fun c => !isBlank c) = tokens.flatten) :
    ofRegistry? (trimChars cs) = none := by
  rw [Option.eq_none_iff_forall_ne_some]
  intro other hother
  -- The comma behind the first field is among what is left without blanks.
  have hcomma : ',' ∈ (trimChars cs).filter fun c => !isBlank c := by
    rw [filter_trimChars, hcs]
    rcases h with ⟨a, b, c, bytes, _, rfl⟩
    exact List.mem_flatten.mpr ⟨[','], by simp [structureTokens], List.mem_singleton_self ','⟩
  exact (ofRegistry?_eq_some_iff.mp hother).comma_not_mem (List.mem_filter.mp hcomma).1

/-- A text that is the structure form without its blanks is read. -/
theorem parse_of_isStructureForm {g : Guid} {tokens : List (List Char)} {text : String}
    (h : g.IsStructureForm tokens)
    (htext : text.toList.filter (fun c => !isBlank c) = tokens.flatten) : parse text = .ok g := by
  have hstructure : ofStructure? (trimChars text.toList) = some g := by
    rw [ofStructure?, filter_trimChars, htext, ofCompact?_of_isStructureForm h]
  simp only [parse, ofRegistry?_of_isStructureForm h htext, hstructure,
    Option.orElse_eq_orElse, Option.orElse_none]

theorem isTrimmed_of_isRegistryForm {g : Guid} {form : List Char} (h : g.IsRegistryForm form) :
    form ≠ [] ∧ IsTrimmed form := by
  rcases h with ⟨inner, _, rfl⟩
  refine ⟨List.cons_ne_nil _ _, fun c hc => ?_, fun c hc => ?_⟩
  · rw [List.head?_cons, Option.mem_some_iff] at hc
    rw [← hc]
    decide
  · rw [← List.cons_append, List.getLast?_concat, Option.mem_some_iff] at hc
    rw [← hc]
    decide

/-- A literal of a GUID is read as this GUID. -/
theorem parse_of_literal {g : Guid} {text : String} (h : g.IsLiteral text) :
    parse text = .ok g := by
  rcases h with ⟨form, hform, hspaced⟩ | ⟨tokens, htokens, hspaced⟩
  · rcases isTrimmed_of_isRegistryForm hform with ⟨hne, htrimmed⟩
    simp only [parse, hspaced.trimChars hne htrimmed, ofRegistry?_eq_some_iff.mpr hform,
      Option.orElse_eq_orElse, Option.orElse_some]
  · exact parse_of_isStructureForm htokens (hspaced.filter htokens.not_isBlank)

/-- The canonical text in braces is a literal. -/
theorem isLiteral_braced (g : Guid) : g.IsLiteral ("\x7b" ++ g.hyphenated ++ "\x7d") := by
  refine Or.inl ⟨_, ofRegistry?_eq_some_iff.mp (ofHyphenated?_hyphenatedChars g), ?_⟩
  refine ⟨[([], _)], [], rfl, by simp, ?_⟩
  rw [String.toList_append, String.toList_append, toList_hyphenated]
  simp

/-- Every literal of a GUID is read as this GUID, so any two of them are read alike, and the
    canonical text in braces is one of them. Whoever reads the text between the braces makes no
    difference to any text. -/
theorem parseWith_of_isLiteral {read? : List Char → Option Guid} (hread : ReadsHyphenated read?) :
    (∀ (g : Guid) (text : String), g.IsLiteral text → parseWith read? text = .ok g) ∧
    (∀ (g : Guid) (text other : String), g.IsLiteral text → g.IsLiteral other →
      parseWith read? text = parseWith read? other) ∧
    (∀ g : Guid, g.IsLiteral ("\x7b" ++ g.hyphenated ++ "\x7d") ∧
      parseWith read? ("\x7b" ++ g.hyphenated ++ "\x7d") = .ok g) ∧
    parseWith read? = parse := by
  rw [parseWith_eq_parse hread]
  refine ⟨fun g text h => parse_of_literal h, ?_,
    fun g => ⟨isLiteral_braced g, parse_braced g⟩, rfl⟩
  intro g text other htext hother
  rw [parse_of_literal htext, parse_of_literal hother]

theorem isField_of_ofDigits? {x : Char} {digits : List Char} {width value : Nat}
    (hx : x = 'x' ∨ x = 'X') (hdigits : ofDigits? 16 digits = some value)
    (hlength : 4 * digits.length ≤ width) : IsField (width, value) ('0' :: x :: digits) :=
  ⟨x, digits, hx, rfl, (ofDigits?_eq_some_iff (le_refl 16)).mp hdigits, hlength⟩

/-- A literal in the structure form with marks and digits of either case, with and without zeros in
    front, and with blanks of several kinds. -/
def mixedLiteral : String :=
  "\t\x7b 0Xa,0x0B00 ,\u3000 0xc0De,\x7b0x1,0x02,0x3,0X04,0x5,0x06,0x7,\n0x08 \x7d \x7d "

/-- A literal that mixes the spellings of its fields is read as the GUID that it spells. -/
theorem parseWith_of_isLiteral_mixed :
    ReadsHyphenated ofHyphenated? ∧
      (⟨0x0000000A0B00C0DE0102030405060708⟩ : Guid).IsLiteral mixedLiteral ∧
      parseWith ofHyphenated? mixedLiteral = .ok ⟨0x0000000A0B00C0DE0102030405060708⟩ := by
  have hliteral : (⟨0x0000000A0B00C0DE0102030405060708⟩ : Guid).IsLiteral mixedLiteral := by
    let gaps := ["\t", " ", "", "", " ", "\u3000 ", "", ""] ++ List.replicate 14 "" ++
      ["\n", " ", " "]
    let bytes := ["0x1", "0x02", "0x3", "0X04", "0x5", "0x06", "0x7", "0x08"].map String.toList
    let tokens := structureTokens "0Xa".toList "0x0B00".toList "0xc0De".toList bytes
    let row := (gaps.map String.toList).zip tokens
    have hgaps : ([' '] :: row.map Prod.fst).all (·.all isBlank) = true := by decide
    refine Or.inr ⟨tokens, ⟨_, _, _, bytes, ?_, rfl⟩, row, [' '], by decide, ?_, by decide⟩
    · -- The fields, told by their tokens.
      repeat' apply List.Forall₂.cons
      all_goals first
        | exact .nil
        | exact isField_of_ofDigits? (by decide) (by decide) (by decide)
    · intro gap hgap
      exact List.all_eq_true.mp (List.all_eq_true.mp hgaps gap hgap)
  exact ⟨readsHyphenated_ofHyphenated?, hliteral,
    (parseWith_of_isLiteral readsHyphenated_ofHyphenated?).1 _ _ hliteral⟩

end Literals

end Guid

end PackageSymbols

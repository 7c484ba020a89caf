import PackageSymbols.Proofs.Numerals
import PackageSymbols.Text.Position

/-!
# The Registry Form

A GUID is its fields, numbers of so many bits each from the most significant one
down. Cutting a number into fields and putting fields together undo each other,
so a literal is told completely by the numerals of its fields.

In the registry form a field has a digit for every four bits, which leaves no
choice but the case of each digit. What is between the braces is the canonical
text but for the case, and the reader accepts it and nothing else. So it does not
matter by whom the text between the braces is read, as long as the canonical form
is accepted among all texts of its length and no other text is: `parseWith` takes
such a reader, and reads the same literals.

## Main definitions

* `Guid.fieldsOf`, `Guid.fields`: A number and a GUID in fields of given widths.
* `Guid.IsHyphenated`, `Guid.IsRegistryForm`: The form without and with braces.
* `Guid.ReadsHyphenated`: What is asked of a reader of texts without braces.
* `Guid.parseWith`: The reader of literals on top of such a reader.

## Theorems

* `Guid.joinFields_fieldsOf`, `Guid.fieldsOf_joinFields`: Fields and numbers.
* `Guid.ofRegistry?_eq_some_iff`: The reader accepts the registry form only.
* `Guid.readsHyphenated_ofHyphenated?`: There is a reader as it is asked for.
* `Guid.parseWith_eq_parse`: With any such reader the same literals are read.
-/

namespace PackageSymbols

namespace Guid

open Text

section Fields

/-- A number in fields of the given widths in bits, the most significant one first. -/
def fieldsOf : (widths : List Nat) → Nat → List (Nat × Nat)
  | [], _ => []
  | width :: widths, n => (width, n / 2 ^ widths.sum % 2 ^ width) :: fieldsOf widths n

/-- A GUID in fields of the given widths in bits. -/
def fields (g : Guid) (widths : List Nat) : List (Nat × Nat) :=
  fieldsOf widths g.bits.toNat

/-- Fields are put together behind what is there already. -/
theorem foldl_fields (fields : List (Nat × Nat)) (high : Nat) :
    fields.foldl (fun high field => high <<< field.1 + field.2) high =
      high * 2 ^ (fields.map Prod.fst).sum + joinFields fields := by
  induction fields generalizing high with
  | nil => simp [joinFields]
  | cons field fields ih =>
      rw [joinFields, List.foldl_cons, List.foldl_cons, ih, ih (0 <<< _ + _), Nat.shiftLeft_eq,
        Nat.shiftLeft_eq, List.map_cons, List.sum_cons, Nat.pow_add]
      ring

theorem joinFields_cons (field : Nat × Nat) (fields : List (Nat × Nat)) :
    joinFields (field :: fields) =
      field.2 * 2 ^ (fields.map Prod.fst).sum + joinFields fields := by
  rw [joinFields, List.foldl_cons, Nat.shiftLeft_eq, Nat.zero_mul, Nat.zero_add, foldl_fields]

@[simp] theorem map_fst_fieldsOf (widths : List Nat) (n : Nat) :
    (fieldsOf widths n).map Prod.fst = widths := by
  induction widths with
  | nil => rfl
  | cons width widths ih => rw [fieldsOf, List.map_cons, ih]

/-- The fields of a number make up the number, as far as they tell it. -/
theorem joinFields_fieldsOf (widths : List Nat) (n : Nat) :
    joinFields (fieldsOf widths n) = n % 2 ^ widths.sum := by
  induction widths with
  | nil => simp [fieldsOf, joinFields, Nat.mod_one]
  | cons width widths ih =>
      rw [fieldsOf, joinFields_cons, map_fst_fieldsOf, ih, List.sum_cons, Nat.add_comm width,
        Nat.pow_add, Nat.mod_mul]
      ring

theorem joinFields_lt {fields : List (Nat × Nat)} (h : ∀ f ∈ fields, f.2 < 2 ^ f.1) :
    joinFields fields < 2 ^ (fields.map Prod.fst).sum := by
  induction fields with
  | nil => decide
  | cons field fields ih =>
      have hrest := ih fun f hf => h f (List.mem_cons_of_mem field hf)
      have hfirst : field.2 + 1 ≤ 2 ^ field.1 := h field List.mem_cons_self
      rw [joinFields_cons, List.map_cons, List.sum_cons, Nat.pow_add]
      calc field.2 * 2 ^ (fields.map Prod.fst).sum + joinFields fields
          < (field.2 + 1) * 2 ^ (fields.map Prod.fst).sum := by
            rw [Nat.add_mul, Nat.one_mul]
            exact Nat.add_lt_add_left hrest _
        _ ≤ 2 ^ field.1 * 2 ^ (fields.map Prod.fst).sum := Nat.mul_le_mul_right _ hfirst

/-- What is put together from fields has these fields, whatever is in front of them. -/
theorem fieldsOf_joinFields {fields : List (Nat × Nat)} (h : ∀ f ∈ fields, f.2 < 2 ^ f.1)
    (high : Nat) :
    fieldsOf (fields.map Prod.fst) (high * 2 ^ (fields.map Prod.fst).sum + joinFields fields) =
      fields := by
  induction fields generalizing high with
  | nil => rfl
  | cons field fields ih =>
      have hrest : ∀ f ∈ fields, f.2 < 2 ^ f.1 := fun f hf => h f (List.mem_cons_of_mem field hf)
      -- The first field moves to what is in front of the others.
      have hsplit : high * 2 ^ ((field :: fields).map Prod.fst).sum +
          joinFields (field :: fields) =
            (high * 2 ^ field.1 + field.2) * 2 ^ (fields.map Prod.fst).sum +
              joinFields fields := by
        rw [joinFields_cons, List.map_cons, List.sum_cons, Nat.pow_add]
        ring
      have hvalue : (high * 2 ^ field.1 + field.2) % 2 ^ field.1 = field.2 := by
        rw [Nat.mul_add_mod', Nat.mod_eq_of_lt (h field List.mem_cons_self)]
      rw [hsplit, List.map_cons, fieldsOf, ih hrest, Nat.mul_comm, Nat.mul_add_div
        (Nat.two_pow_pos _), Nat.div_eq_of_lt (joinFields_lt hrest), Nat.add_zero, hvalue]

/-- A GUID is made up of its fields. -/
theorem ofFields_fields (g : Guid) {widths : List Nat} (h : widths.sum = 128) :
    ofFields (g.fields widths) = g := by
  rw [ofFields, fields, joinFields_fieldsOf, h, Nat.mod_eq_of_lt g.bits.isLt, ofNat,
    BitVec.ofNat_toNat, BitVec.setWidth_eq]

/-- A GUID that is made up of fields has these fields. -/
theorem fields_ofFields {parts : List (Nat × Nat)} (h : ∀ f ∈ parts, f.2 < 2 ^ f.1)
    (hsum : (parts.map Prod.fst).sum = 128) :
    (ofFields parts).fields (parts.map Prod.fst) = parts := by
  have hlt : joinFields parts < 2 ^ 128 := hsum ▸ joinFields_lt h
  have hbits : (ofFields parts).bits.toNat = joinFields parts := by
    rw [ofFields, ofNat, BitVec.toNat_ofNat, Nat.mod_eq_of_lt hlt]
  have hfields := fieldsOf_joinFields h 0
  rw [Nat.zero_mul, Nat.zero_add] at hfields
  rw [fields, hbits, hfields]

end Fields

section Form

/-- Whether a text tells a field with a digit for every four bits. -/
def IsGroup (field : Nat × Nat) (cs : List Char) : Prop :=
  IsNumeral 16 field.2 cs ∧ 4 * cs.length = field.1

/-- Whether a text is the canonical text of a GUID, but for the case of its digits: groups of 8, 4,
    4, 4 and 12 digits with dashes between them. -/
def IsHyphenated (g : Guid) (cs : List Char) : Prop :=
  ∃ groups, List.Forall₂ IsGroup (g.fields [32, 16, 16, 16, 48]) groups ∧
    cs = (groups.intersperse ['-']).flatten

/-- Whether a text is the registry form of a GUID. -/
def IsRegistryForm (g : Guid) (cs : List Char) : Prop :=
  ∃ inner, g.IsHyphenated inner ∧ cs = '\x7b' :: (inner ++ ['\x7d'])

/-- The digits of a field bound it as its width does. -/
theorem IsGroup.lt_pow {field : Nat × Nat} {cs : List Char} (h : IsGroup field cs) :
    field.2 < 2 ^ field.1 := by
  rw [← h.2, Nat.pow_mul]
  exact h.1.lt_pow (by decide)

theorem expect?_eq_some_iff {c : Char} {cs rest : List Char} :
    expect? c cs = some rest ↔ cs = c :: rest := by
  cases cs with
  | nil => simp [expect?]
  | cons d cs =>
      rw [expect?]
      by_cases h : d = c
      · rw [if_pos h, h, Option.some.injEq, List.cons.injEq, and_iff_right rfl]
      · rw [if_neg h]
        simp [h]

/-- A group is read if the text begins with a numeral of its width. -/
theorem group?_eq_some_iff {width value : Nat} {cs rest : List Char} :
    group? width cs = some (value, rest) ↔
      ∃ digits, IsGroup (4 * width, value) digits ∧ cs = digits ++ rest := by
  rw [group?]
  constructor
  · intro h
    by_cases hlength : (cs.take width).length = width
    · rw [if_pos hlength, Option.map_eq_some_iff] at h
      rcases h with ⟨n, hn, hpair⟩
      rw [Prod.mk.injEq] at hpair
      rw [← hpair.1, ← hpair.2]
      exact ⟨cs.take width, ⟨(ofDigits?_eq_some_iff (le_refl 16)).mp hn, by rw [hlength]⟩,
        (List.take_append_drop width cs).symm⟩
    · rw [if_neg hlength] at h
      exact absurd h (by simp only [reduceCtorEq, not_false_eq_true])
  · rintro ⟨digits, ⟨hnumeral, hwidth⟩, rfl⟩
    -- Four bits for a digit tell how many digits there are.
    have hlength : digits.length = width := Nat.eq_of_mul_eq_mul_left (by decide) hwidth
    have hread := group?_append hlength rest
    rw [(ofDigits?_eq_some_iff (le_refl 16)).mpr hnumeral] at hread
    exact hread

/-- The canonical text and the fields that it tells. -/
theorem isHyphenated_iff {g : Guid} {inner : List Char} :
    g.IsHyphenated inner ↔ ∃ a b c d e as bs cs ds es,
      IsGroup (32, a) as ∧ IsGroup (16, b) bs ∧ IsGroup (16, c) cs ∧ IsGroup (16, d) ds ∧
      IsGroup (48, e) es ∧ g = ofFields [(32, a), (16, b), (16, c), (16, d), (48, e)] ∧
      inner = as ++ '-' :: (bs ++ '-' :: (cs ++ '-' :: (ds ++ '-' :: es))) := by
  constructor
  · rintro ⟨groups, hgroups, hinner⟩
    -- The fields of a GUID make it up again.
    have hsum : [32, 16, 16, 16, 48].sum = 128 := rfl
    have hg := (g.ofFields_fields hsum).symm
    rw [fields, fieldsOf, fieldsOf, fieldsOf, fieldsOf, fieldsOf, fieldsOf] at hgroups hg
    simp only [List.forall₂_cons_left_iff, List.forall₂_nil_left_iff] at hgroups
    rcases hgroups with ⟨as, _, ha, ⟨bs, _, hb, ⟨cs, _, hc, ⟨ds, _, hd, ⟨es, _, he, rfl, rfl⟩, rfl⟩,
      rfl⟩, rfl⟩, rfl⟩
    refine ⟨_, _, _, _, _, as, bs, cs, ds, es, ha, hb, hc, hd, he, hg, ?_⟩
    rw [hinner]
    simp
  · rintro ⟨a, b, c, d, e, as, bs, cs, ds, es, ha, hb, hc, hd, he, rfl, rfl⟩
    -- The digits bound each field, so the GUID that they make up has these fields.
    have hbound : ∀ field ∈ [(32, a), (16, b), (16, c), (16, d), (48, e)],
        field.2 < 2 ^ field.1 := by
      simp only [List.forall_mem_cons]
      exact ⟨ha.lt_pow, hb.lt_pow, hc.lt_pow, hd.lt_pow, he.lt_pow, by simp⟩
    have hfields : fields _ [32, 16, 16, 16, 48] = _ := fields_ofFields hbound rfl
    refine ⟨[as, bs, cs, ds, es], ?_, by simp⟩
    rw [hfields]
    exact .cons ha (.cons hb (.cons hc (.cons hd (.cons he .nil))))

/-- The reader of the registry form accepts the registry form and nothing else. -/
theorem ofRegistry?_eq_some_iff {g : Guid} {cs : List Char} :
    ofRegistry? cs = some g ↔ g.IsRegistryForm cs := by
  simp only [IsRegistryForm, isHyphenated_iff, ofRegistry?, Option.bind_eq_bind,
    Option.bind_eq_some_iff, expect?_eq_some_iff, Prod.exists, group?_eq_some_iff]
  constructor
  · rintro ⟨_, rfl, a, _, ⟨as, ha, rfl⟩, _, rfl, b, _, ⟨bs, hb, rfl⟩, _, rfl, c, _, ⟨cs, hc, rfl⟩,
      _, rfl, d, _, ⟨ds, hd, rfl⟩, _, rfl, e, _, ⟨es, he, rfl⟩, rest, rfl, hg⟩
    -- Nothing may be left behind the closing brace.
    by_cases hrest : rest = []
    · rw [hrest, List.isEmpty_nil, if_pos rfl, Option.some.injEq] at hg
      refine ⟨_, ⟨a, b, c, d, e, as, bs, cs, ds, es, ha, hb, hc, hd, he, hg.symm, rfl⟩, ?_⟩
      rw [hrest]
      simp only [List.append_assoc, List.cons_append]
    · rw [if_neg (by rw [List.isEmpty_iff]; exact hrest)] at hg
      exact absurd hg (by simp only [reduceCtorEq, not_false_eq_true])
  · rintro ⟨_, ⟨a, b, c, d, e, as, bs, cs, ds, es, ha, hb, hc, hd, he, rfl, rfl⟩, rfl⟩
    simp only [List.append_assoc, List.cons_append]
    exact ⟨_, rfl, a, _, ⟨as, ha, rfl⟩, _, rfl, b, _, ⟨bs, hb, rfl⟩, _, rfl, c, _, ⟨cs, hc, rfl⟩,
      _, rfl, d, _, ⟨ds, hd, rfl⟩, _, rfl, e, _, ⟨es, he, rfl⟩, [], rfl, rfl⟩

end Form

section Readers

/-- What a text holds between braces. -/
def unbraced? (cs : List Char) : Option (List Char) :=
  (expect? '\x7b' cs).bind fun rest =>
    if rest.getLast? = some '\x7d' then some rest.dropLast else none

/-- Whether a reader accepts the canonical text of each GUID, in either case, and no other text of
    36 bytes. -/
def ReadsHyphenated (read? : List Char → Option Guid) : Prop :=
  ∀ inner, utf8Length inner = 36 → ∀ g, read? inner = some g ↔ IsHyphenated g inner

/-- Reads a GUID literal, the registry form by a reader of what is between its braces. Only texts
    of 36 bytes are handed to it. -/
def parseWith (read? : List Char → Option Guid) (text : String) : Except Invalid Guid :=
  let cs := trimChars text.toList
  let registry := (unbraced? cs).bind fun inner =>
    if utf8Length inner = 36 then read? inner else none
  match registry <|> ofStructure? cs with
  | some g => .ok g
  | none => .error ⟨text⟩

theorem unbraced?_eq_some_iff {cs inner : List Char} :
    unbraced? cs = some inner ↔ cs = '\x7b' :: (inner ++ ['\x7d']) := by
  rw [unbraced?, Option.bind_eq_some_iff]
  constructor
  · rintro ⟨rest, hrest, hinner⟩
    rw [expect?_eq_some_iff] at hrest
    by_cases hlast : rest.getLast? = some '\x7d'
    · rw [if_pos hlast, Option.some.injEq] at hinner
      rcases List.getLast?_eq_some_iff.mp hlast with ⟨front, rfl⟩
      rw [List.dropLast_concat] at hinner
      rw [hrest, hinner]
    · rw [if_neg hlast] at hinner
      exact absurd hinner (by simp only [reduceCtorEq, not_false_eq_true])
  · rintro rfl
    refine ⟨inner ++ ['\x7d'], expect?_cons _ _, ?_⟩
    rw [List.getLast?_concat, if_pos rfl, List.dropLast_concat]

theorem utf8Size_of_isDigitOf : ∀ d < 16, ∀ c, IsDigitOf d c → c.utf8Size = 1 := by
  have hlower : ∀ d < 16, (lowerDigit d).utf8Size = 1 := by decide
  have hupper : ∀ d < 16, (upperDigit d).utf8Size = 1 := by decide
  rintro d hd c (rfl | rfl)
  · exact hlower d hd
  · exact hupper d hd

theorem utf8Length_of_isNumeral {n : Nat} {cs : List Char} (h : IsNumeral 16 n cs) :
    utf8Length cs = cs.length := by
  have hdigits := h.isDigit (le_refl 16)
  clear h
  induction cs with
  | nil => rfl
  | cons c cs ih =>
      rcases (isDigit_iff (le_refl 16)).mp (hdigits c List.mem_cons_self) with ⟨d, hd, hc⟩
      rw [utf8Length_cons, List.length_cons, utf8Size_of_isDigitOf d hd c hc,
        ih fun e he => hdigits e (List.mem_cons_of_mem c he), Nat.add_comm]

/-- The canonical text takes 36 bytes. -/
theorem IsHyphenated.utf8Length {g : Guid} {inner : List Char} (h : g.IsHyphenated inner) :
    utf8Length inner = 36 := by
  rcases isHyphenated_iff.mp h with ⟨_, _, _, _, _, as, bs, cs, ds, es, ha, hb, hc, hd, he, _, rfl⟩
  have hdash : '-'.utf8Size = 1 := rfl
  simp only [utf8Length_append, utf8Length_cons, hdash, utf8Length_of_isNumeral ha.1,
    utf8Length_of_isNumeral hb.1, utf8Length_of_isNumeral hc.1, utf8Length_of_isNumeral hd.1,
    utf8Length_of_isNumeral he.1]
  have hlengths := And.intro ha.2 (And.intro hb.2 (And.intro hc.2 (And.intro hd.2 he.2)))
  omega

/-- The reader of the canonical text is a reader as it is asked for. -/
theorem readsHyphenated_ofHyphenated? : ReadsHyphenated ofHyphenated? := by
  intro inner _ g
  rw [ofHyphenated?, ofRegistry?_eq_some_iff, IsRegistryForm]
  constructor
  · rintro ⟨other, hother, heq⟩
    rw [List.append_cancel_right (List.cons.inj heq).2]
    exact hother
  · exact fun h => ⟨inner, h, rfl⟩

/-- With any reader of the canonical text the same literals are read. -/
theorem parseWith_eq_parse {read? : List Char → Option Guid} (h : ReadsHyphenated read?) :
    parseWith read? = parse := by
  have hregistry : ∀ cs, ((unbraced? cs).bind fun inner =>
      if Text.utf8Length inner = 36 then read? inner else none) = ofRegistry? cs := by
    intro cs
    refine Option.ext fun g => ?_
    rw [ofRegistry?_eq_some_iff, Option.bind_eq_some_iff, IsRegistryForm]
    refine exists_congr fun inner => ?_
    rw [unbraced?_eq_some_iff, and_comm]
    refine and_congr_left fun _ => ?_
    -- Texts of another length are not handed over, and are no canonical texts either.
    by_cases hlength : Text.utf8Length inner = 36
    · rw [if_pos hlength, h inner hlength g]
    · rw [if_neg hlength]
      exact iff_of_false (by simp only [reduceCtorEq, not_false_eq_true])
        fun hg => hlength hg.utf8Length
  funext text
  simp only [parseWith, hregistry]
  rfl

end Readers

end Guid

end PackageSymbols

import PackageSymbols.Identifier

/-!
# What Replacing Characters Does to a Name

Both kinds of names are made by putting an underscore in place of what is not
allowed, so two things can be read off a name that was made. All of its
characters are allowed. And where it holds no underscore, nothing was replaced
and nothing was put in front, so it is the name that was written. This is why
fixed names without an underscore are reached from themselves only.

What an identifier is depends on two classes of characters, which come as long
tables. Nothing is ever asked of the tables but that what may start an identifier
may continue it, the underscore included. So identifiers are made of any two such
classes (`Identifier.Classes`), and those of Unicode are one case.

Identifiers are the stricter kind, so a file name keeps all that the identifier
of a name depends on.

What was made once is not changed when it is made again. For identifiers this is
plain, since they have the shape that is asked for. The word `guid` in front is
another matter: dropping it could uncover a second one, or the replacement could
put one together. It cannot, since what stood behind the word is a capital, and
since an underscore is no part of the word, so where the word stands in front
afterwards it stood there before.

## Main definitions

* `Identifier.Classes`: Two classes of characters to make identifiers of.
* `Identifier.Classes.IsIdentifier`, `Identifier.Classes.make`: The shape of an
  identifier, and the identifier made from a name.
* `Identifier.xid`, `Identifier.IsIdentifier`: The same for the classes of Unicode.

## Theorems

* `of_mem_underscored`: All characters are allowed after the replacement.
* `eq_of_underscored_eq`: Without an underscore, nothing was replaced.
* `Identifier.eq_of_ofName_eq`: An identifier without an underscore is the name
  it was made from.
* `Identifier.Classes.isIdentifier_make`, `Identifier.Classes.make_of_isIdentifier`:
  What is made is an identifier, and identifiers are left as they are.
* `Identifier.ofName_ofName`, `Identifier.ofGuidName_ofGuidName`: What was made
  once is not changed again.
* `Identifier.ofName_fileName`, `Identifier.ofName_eq_of_fileName_eq`: A file name
  keeps the identifier, so names of one file have one identifier.
* `FileName.isAllowed_of_plain`: Letters and the dot may stand in a file name.
* `FileName.isAllowed_of_mem_ofName`: A file name holds what it may hold.
-/

namespace PackageSymbols

theorem of_mem_underscored {allowed : Char → Bool} (hunderscore : allowed '_' = true)
    {name : List Char} {c : Char} (h : c ∈ underscored allowed name) : allowed c = true := by
  rcases List.mem_map.mp h with ⟨d, _, rfl⟩
  by_cases hd : allowed d = true
  · rw [if_pos hd]
    exact hd
  · rw [if_neg hd]
    exact hunderscore

/-- Where there is no underscore afterwards, nothing was replaced. -/
theorem eq_of_underscored_eq {allowed : Char → Bool} {name made : List Char}
    (hnone : '_' ∉ made) (h : underscored allowed name = made) : name = made := by
  rw [underscored] at h
  rw [← h] at hnone ⊢
  have hkept : ∀ c ∈ name, (if allowed c then c else '_') = c := by
    intro c hc
    by_cases hallowed : allowed c = true
    · rw [if_pos hallowed]
    · have hmem := List.mem_map_of_mem (f := fun c => if allowed c then c else '_') hc
      rw [if_neg hallowed] at hmem
      exact absurd hmem hnone
  rw [List.map_congr_left hkept, List.map_id']

/-- Where all characters are allowed, nothing is replaced. -/
theorem underscored_eq_self {allowed : Char → Bool} {name : List Char}
    (h : ∀ c ∈ name, allowed c = true) : underscored allowed name = name := by
  rw [underscored, List.map_congr_left fun c hc => if_pos (h c hc), List.map_id']

/-- What stands in front without an underscore afterwards stood there before. -/
theorem exists_of_underscored_eq_append {allowed : Char → Bool} {name front rest : List Char}
    (hnone : '_' ∉ front) (h : underscored allowed name = front ++ rest) :
    ∃ behind, name = front ++ behind := by
  rcases List.map_eq_append_iff.mp h with ⟨before, behind, rfl, hfront, _⟩
  exact ⟨behind, by rw [eq_of_underscored_eq hnone hfront]⟩

namespace Identifier

/-- Two classes of characters that identifiers are made of. -/
structure Classes where
  /-- The characters that may start an identifier. -/
  start : Char → Bool
  /-- The characters that may continue one. -/
  part : Char → Bool
  /-- The underscore may start an identifier. -/
  start_underscore : start '_' = true
  /-- What may start an identifier may also continue it. -/
  part_of_start : ∀ c, start c = true → part c = true

namespace Classes

variable (k : Classes)

/-- Whether a name begins as an identifier may and goes on as one may. -/
def IsIdentifier : List Char → Prop
  | [] => False
  | c :: cs => k.start c = true ∧ ∀ d ∈ c :: cs, k.part d = true

/-- The identifier made from the characters of a name. -/
def make (name : List Char) : List Char :=
  match underscored k.part name with
  | [] => ['_']
  | c :: cs => if k.start c then c :: cs else '_' :: c :: cs

theorem part_underscore : k.part '_' = true :=
  k.part_of_start '_' k.start_underscore

/-- What is made from a name is an identifier. -/
theorem isIdentifier_make (name : List Char) : k.IsIdentifier (k.make name) := by
  have hall : ∀ d ∈ underscored k.part name, k.part d = true :=
    fun _ => of_mem_underscored k.part_underscore
  rw [make]
  cases hmade : underscored k.part name with
  | nil =>
      refine ⟨k.start_underscore, fun d hd => ?_⟩
      rw [List.mem_singleton.mp hd]
      exact k.part_underscore
  | cons c cs =>
      rw [hmade] at hall
      by_cases hc : k.start c = true
      · simp only [if_pos hc]
        exact ⟨hc, hall⟩
      -- An underscore goes in front, which may start an identifier and may continue it.
      · simp only [if_neg hc]
        refine ⟨k.start_underscore, fun d hd => ?_⟩
        rcases List.mem_cons.mp hd with rfl | hd
        · exact k.part_underscore
        · exact hall d hd

/-- An identifier is left as it is. -/
theorem make_of_isIdentifier {name : List Char} (h : k.IsIdentifier name) : k.make name = name := by
  cases name with
  | nil => exact h.elim
  | cons c cs =>
      rw [make, underscored_eq_self h.2]
      exact if_pos h.1

end Classes

/-- The classes of Unicode, with the underscore among the characters that may start. -/
def xid : Classes where
  start := canStart
  part := canContinue
  start_underscore := canStart_underscore
  part_of_start := fun _ => canContinue_of_canStart

/-- Whether a name begins as an identifier may and goes on as one may. -/
def IsIdentifier (name : List Char) : Prop :=
  xid.IsIdentifier name

theorem make_xid (name : List Char) : xid.make name = ofChars name :=
  rfl

/-- What is made from a name is an identifier. -/
theorem isIdentifier_ofChars (name : List Char) : IsIdentifier (ofChars name) :=
  xid.isIdentifier_make name

theorem forall_canContinue {name : List Char} (h : IsIdentifier name) :
    ∀ c ∈ name, canContinue c = true := by
  cases name with
  | nil => exact h.elim
  | cons c cs => exact h.2

/-- An identifier is left as it is. -/
theorem ofChars_of_isIdentifier {name : List Char} (h : IsIdentifier name) :
    ofChars name = name :=
  xid.make_of_isIdentifier h

@[simp] theorem ofName_ofName (name : String) : ofName (ofName name) = ofName name := by
  unfold ofName
  rw [String.toList_ofList, ofChars_of_isIdentifier (isIdentifier_ofChars _)]

/-- The word in front of a capital is dropped, and a name without it is left as it is. -/
theorem stripMarkerChars_cases (name : List Char) :
    (∃ c cs, c.isUpper = true ∧ name = ['g', 'u', 'i', 'd', c] ++ cs ∧
      stripMarkerChars name = c :: cs) ∨
    ((∀ c cs, c.isUpper = true → name ≠ ['g', 'u', 'i', 'd', c] ++ cs) ∧
      stripMarkerChars name = name) := by
  unfold stripMarkerChars
  split
  · rename_i c cs
    by_cases hc : c.isUpper = true
    · exact Or.inl ⟨c, cs, hc, rfl, if_pos hc⟩
    · refine Or.inr ⟨fun e es he heq => hc ?_, if_neg hc⟩
      simp only [List.cons_append, List.nil_append, List.cons.injEq, true_and] at heq
      rw [heq.1]
      exact he
  · rename_i hother
    exact Or.inr ⟨fun c cs _ heq => hother c cs heq, rfl⟩

/-- The identifier of a GUID does not begin with the word. -/
theorem stripMarkerChars_ofChars (name : List Char) :
    stripMarkerChars (ofChars (stripMarkerChars name)) = ofChars (stripMarkerChars name) := by
  rcases stripMarkerChars_cases (ofChars (stripMarkerChars name)) with
    ⟨c, cs, hc, hmade, _⟩ | ⟨_, hsame⟩
  · exfalso
    have hnone : '_' ∉ ['g', 'u', 'i', 'd', c] := by
      have hcapital : '_' ≠ c := by
        rintro rfl
        exact absurd hc (by decide)
      simp only [List.mem_cons, List.not_mem_nil, or_false, not_or]
      exact ⟨by decide, by decide, by decide, by decide, hcapital⟩
    -- Nothing went in front, so the word was in the name before the replacement.
    have hunderscored : underscored canContinue (stripMarkerChars name) =
        ['g', 'u', 'i', 'd', c] ++ cs := by
      rw [ofChars] at hmade
      cases hchars : underscored canContinue (stripMarkerChars name) with
      | nil =>
          simp only [hchars] at hmade
          exact absurd (List.cons.inj hmade).1 (by decide)
      | cons d ds =>
          simp only [hchars] at hmade
          by_cases hd : canStart d = true
          · rw [if_pos hd] at hmade
            exact hmade
          · rw [if_neg hd] at hmade
            exact absurd (List.cons.inj hmade).1 (by decide)
    rcases exists_of_underscored_eq_append hnone hunderscored with ⟨behind, hbehind⟩
    -- But what is left of a name begins with a capital, or the name did not begin with the word.
    rcases stripMarkerChars_cases name with ⟨e, es, he, _, hstrip⟩ | ⟨hother, hstrip⟩
    · rw [hstrip] at hbehind
      rw [(List.cons.inj hbehind).1] at he
      exact absurd he (by decide)
    · rw [hstrip] at hbehind
      exact hother c behind hc hbehind
  · exact hsame

@[simp] theorem ofGuidName_ofGuidName (name : String) :
    ofGuidName (ofGuidName name) = ofGuidName name := by
  unfold ofGuidName stripMarker ofName
  simp only [String.toList_ofList, stripMarkerChars_ofChars]
  rw [ofChars_of_isIdentifier (isIdentifier_ofChars _)]

/-- An identifier without an underscore is the name that it was made from. -/
theorem eq_of_ofName_eq {name made : String} (hnone : '_' ∉ made.toList)
    (h : ofName name = made) : name = made := by
  have hchars : ofChars name.toList = made.toList := by
    rw [← h, ofName, String.toList_ofList]
  rw [← String.toList_inj]
  rw [ofChars] at hchars
  cases hmade : underscored canContinue name.toList with
  | nil =>
      rw [hmade] at hchars
      exact absurd (hchars ▸ List.mem_singleton_self '_') hnone
  | cons c cs =>
      simp only [hmade] at hchars
      by_cases hc : canStart c = true
      · rw [if_pos hc] at hchars
        exact eq_of_underscored_eq hnone (hmade.trans hchars)
      · rw [if_neg hc] at hchars
        exact absurd (hchars ▸ List.mem_cons_self) hnone

/-- Replacing fewer characters first makes no difference. -/
theorem underscored_underscored {strict lax : Char → Bool} (hunderscore : strict '_' = true)
    (hlax : ∀ c, strict c = true → lax c = true) (name : List Char) :
    underscored strict (underscored lax name) = underscored strict name := by
  rw [underscored, underscored, underscored, List.map_map]
  refine List.map_congr_left fun c _ => ?_
  rw [Function.comp_apply]
  by_cases hc : lax c = true
  · rw [if_pos hc]
  · rw [if_neg hc, if_pos hunderscore, if_neg fun hstrict => hc (hlax c hstrict)]

/-- The identifier of the file name of a name is the identifier of the name. -/
theorem ofName_fileName (name : String) : ofName (FileName.ofName name) = ofName name := by
  have hallowed : ∀ c, canContinue c = true → FileName.isAllowed c = true := by
    intro c hc
    rw [FileName.isAllowed, hc, Bool.true_or]
  rw [ofName, FileName.ofName, String.toList_ofList, ofChars,
    underscored_underscored canContinue_underscore hallowed]
  rfl

/-- Names that lead to one file lead to one identifier. -/
theorem ofName_eq_of_fileName_eq {a b extension : String}
    (h : FileName.ofName (a ++ extension) = FileName.ofName (b ++ extension)) :
    ofName a = ofName b := by
  have hchars := String.ofList_injective h
  rw [underscored, underscored, String.toList_append, String.toList_append, List.map_append,
    List.map_append] at hchars
  have hfile : FileName.ofName a = FileName.ofName b :=
    congrArg String.ofList (List.append_cancel_right hchars)
  rw [← ofName_fileName a, hfile, ofName_fileName]

end Identifier

namespace FileName

open Identifier

/-- ASCII letters and the dot may stand in a file name. -/
theorem isAllowed_of_plain {c : Char} (h : (c.isAlpha || c == '.') = true) :
    isAllowed c = true := by
  rcases Bool.or_eq_true _ _ ▸ h with hletter | hdot
  · have hrange : letterRanges.contains c = true := by
      refine (Text.CharRanges.contains_iff _ _).mpr ?_
      rcases Bool.or_eq_true _ _ ▸ hletter with hupper | hlower
      · exact ⟨(0x41, 0x5A), List.mem_cons_self, of_decide_eq_true hupper⟩
      · have hbounds : (decide (c.val ≥ 0x61) && decide (c.val ≤ 0x7A)) = true := hlower
        rw [Bool.and_eq_true, decide_eq_true_eq, decide_eq_true_eq] at hbounds
        exact ⟨(0x61, 0x7A), List.mem_cons_of_mem _ List.mem_cons_self, hbounds⟩
    rw [isAllowed, canContinue, hrange, Bool.true_or, Bool.true_or]
  -- The dot is in neither table, so it is looked up in the short list only.
  · rw [beq_iff_eq.mp hdot, isAllowed, Bool.or_eq_true]
    exact Or.inr (by decide)

/-- A file name that was made holds only what a file name may hold. -/
theorem isAllowed_of_mem_ofName {name : String} {c : Char} (h : c ∈ (ofName name).toList) :
    isAllowed c = true := by
  rw [ofName, String.toList_ofList] at h
  refine of_mem_underscored ?_ h
  rw [isAllowed, canContinue_underscore, Bool.true_or]

end FileName

end PackageSymbols

import PackageSymbols.Proofs.Identifier
import PackageSymbols.Proofs.Source.Members

/-!
# Foreign Names Stay in Their Place

Names in a command table may hold anything, quotes, markup and line breaks
included, and two of the ways in which they reach generated code have to keep
them in their place. A name that becomes an identifier has every character
replaced that could end the word, and a name in documentation has its markup
and its line terminators replaced. So a name can neither add a line nor change
what a line is, and the shape of a file follows from its steps alone.

## Main definitions

* `IsSafeRemark`: A line that would be documentation holds no markup of its own.
* `Conveys`: What a file must be that conveys certain declarations.

## Theorems

* `Identifier.isName_ofName`: Identifiers are made of their own characters only.
* `isRemarkText_remark`, `isOneLine_remark`: Foreign text in documentation holds
  no markup and stays on its line.
* `IsOutline.conveys`: The lines of an outline convey what it declares.
* `conveys_classFile`: A file conveys what its class declares.
-/

namespace PackageSymbols

namespace Identifier

/-- An identifier that was made from a name has only characters of identifiers. -/
theorem isName_ofName (name : String) : IsName (ofName name).toList := by
  rw [ofName, String.toList_ofList]
  exact forall_canContinue (isIdentifier_ofChars _)

end Identifier

namespace Source

open Identifier

section Texts

theorem isLineTerminator_of_canContinue {c : Char} (h : canContinue c = true) :
    isLineTerminator c = false := by
  refine Bool.eq_false_iff.mpr fun ht => ?_
  simp only [isLineTerminator, Bool.or_eq_true, beq_iff_eq] at ht
  -- None of the five terminators may continue an identifier.
  rcases ht with (((rfl | rfl) | rfl) | rfl) | rfl
  all_goals exact absurd h (by decide +kernel)

theorem isOneLine_of_isName {s : String} (h : IsName s.toList) : IsOneLine s :=
  fun c hc => isLineTerminator_of_canContinue (h c hc)

theorem isRemarkText_append {xs ys : List Char} (hxs : isRemarkText xs = true)
    (hys : isRemarkText ys = true) : isRemarkText (xs ++ ys) = true := by
  induction xs with
  | nil => exact hys
  | cons c cs ih =>
      rw [isRemarkText, Bool.and_eq_true] at hxs
      rw [List.cons_append, isRemarkText, Bool.and_eq_true]
      refine ⟨?_, ih hxs.2⟩
      by_cases hc : c = '&'
      · -- An entity that begins a text begins what the text is continued to.
        rw [if_pos hc, List.any_eq_true] at hxs
        rw [if_pos hc, List.any_eq_true]
        rcases hxs.1 with ⟨entity, hmem, hentity⟩
        rw [List.isPrefixOf_iff_prefix] at hentity
        exact ⟨entity, hmem,
          List.isPrefixOf_iff_prefix.mpr (hentity.trans (List.prefix_append _ _))⟩
      · rw [if_neg hc]
        rw [if_neg hc] at hxs
        exact hxs.1

theorem isRemarkText_remarkChar (c : Char) : isRemarkText (remarkChar c) = true := by
  rw [remarkChar]
  -- What a character is replaced by is safe by itself; one that is kept is none of the three.
  by_cases hand : c = '&'
  · rw [if_pos hand]
    decide
  · rw [if_neg hand]
    by_cases hless : c = '<'
    · rw [if_pos hless]
      decide
    · rw [if_neg hless]
      by_cases hgreater : c = '>'
      · rw [if_pos hgreater]
        decide
      · rw [if_neg hgreater]
        by_cases hend : isLineTerminator c = true
        · rw [if_pos hend]
          decide
        · rw [if_neg hend, isRemarkText, if_neg hand, isRemarkText, Bool.and_true, Bool.and_eq_true,
            bne_iff_ne, bne_iff_ne]
          exact ⟨hless, hgreater⟩

/-- Foreign text in documentation holds no markup. -/
theorem isRemarkText_remark (s : String) : isRemarkText (remark s).toList = true := by
  rw [remark, String.toList_ofList, remarkChars]
  induction s.toList with
  | nil => rfl
  | cons c cs ih =>
      rw [List.flatMap_cons]
      exact isRemarkText_append (isRemarkText_remarkChar c) ih

/-- Foreign text in documentation stays on its line. -/
theorem isOneLine_remark (s : String) : IsOneLine (remark s) := by
  intro c hc
  rw [remark, String.toList_ofList, remarkChars, List.mem_flatMap] at hc
  rcases hc with ⟨d, _, hc⟩
  -- The entities are looked through once, and any other character is kept unless it ends a line.
  have hentity : ∀ {entity : String}, (entity.toList.all fun c => !isLineTerminator c) = true →
      c ∈ entity.toList → isLineTerminator c = false := by
    intro entity hall hmem
    exact Bool.not_eq_true' _ ▸ List.all_eq_true.mp hall c hmem
  rw [remarkChar] at hc
  by_cases hand : d = '&'
  · rw [if_pos hand] at hc
    exact hentity (by decide) hc
  · rw [if_neg hand] at hc
    by_cases hless : d = '<'
    · rw [if_pos hless] at hc
      exact hentity (by decide) hc
    · rw [if_neg hless] at hc
      by_cases hgreater : d = '>'
      · rw [if_pos hgreater] at hc
        exact hentity (by decide) hc
      · rw [if_neg hgreater] at hc
        by_cases hend : isLineTerminator d = true
        · rw [if_pos hend, List.mem_singleton] at hc
          rw [hc]
          decide
        · rw [if_neg hend, List.mem_singleton] at hc
          rw [hc]
          exact Bool.eq_false_iff.mpr hend

end Texts

section Outlines

theorem IsOutline.append {steps more : List Step} (h : IsOutline steps) (hmore : IsOutline more) :
    IsOutline (steps ++ more) := by
  induction h with
  | done => exact hmore
  | line text rest htext _ ih => exact .line text _ htext ih
  | remark text rest hsafe htext _ ih => exact .remark text _ hsafe htext ih
  | block header inner rest hheader hinner _ _ ih =>
      rw [List.cons_append, List.append_assoc, List.cons_append]
      exact .block header inner _ hheader hinner ih

theorem isOutline_flatMap {α : Type} {steps : α → List Step} {members : List α}
    (h : ∀ m ∈ members, IsOutline (steps m)) : IsOutline (members.flatMap steps) := by
  induction members with
  | nil => exact .done
  | cons m members ih =>
      rw [List.flatMap_cons]
      exact (h m List.mem_cons_self).append (ih fun m' hm' => h m' (List.mem_cons_of_mem m hm'))

theorem IsCodeLine.append {s t : String} (hs : IsCodeLine s) (ht : IsOneLine t) :
    IsCodeLine (s ++ t) := by
  rcases hs.1 with ⟨c, cs, hchars, hc⟩
  refine ⟨⟨c, cs ++ t.toList, ?_, hc⟩, isOneLine_append hs.2 ht⟩
  rw [String.toList_append, hchars, List.cons_append]

theorem isOutline_classSteps {members : List Step} (h : IsOutline members)
    {documentation name : String} (hsafe : isRemarkText documentation.toList = true)
    (hdocumentation : IsOneLine documentation) (hname : IsName name.toList) :
    IsOutline (classSteps documentation name members) := by
  have hword : IsCodeLine "internal sealed partial class " := ⟨⟨'i', _, rfl, rfl⟩, by decide⟩
  exact .remark documentation _ hsafe hdocumentation
    (.block _ members [] (hword.append (isOneLine_of_isName hname)) h .done)

theorem isOutline_namespaceSteps {members : List Step} (h : IsOutline members) {name : String}
    (hname : IsOneLine name) : IsOutline (namespaceSteps name members) := by
  have hword : IsCodeLine "namespace " := ⟨⟨'n', _, rfl, rfl⟩, by decide⟩
  exact .block _ members [] (hword.append hname) h .done

theorem isOneLine_hyphenated (g : Guid) : IsOneLine g.hyphenated := by
  rw [IsOneLine, Guid.toList_hyphenated]
  exact g.forall_mem_hyphenatedChars (by decide) (by decide)

theorem isOneLine_expression (id : CommandId) : IsOneLine id.expression := by
  have hhex : IsOneLine id.hex := by
    rw [IsOneLine, CommandId.toList_hex]
    exact id.forall_mem_hexChars (by decide) (by decide)
  rw [CommandId.expression]
  by_cases hneg : id < 0
  · rw [if_pos hneg]
    exact isOneLine_append (isOneLine_append (by decide) hhex) (by decide)
  · rw [if_neg hneg]
    exact hhex

theorem isCodeLine_assignment {front name link value behind : String} (hfront : IsCodeLine front)
    (hname : IsName name.toList) (hlink : IsOneLine link) (hvalue : IsOneLine value)
    (hbehind : IsOneLine behind) : IsCodeLine (front ++ name ++ link ++ value ++ behind) :=
  (((hfront.append (isOneLine_of_isName hname)).append hlink).append hvalue).append hbehind

/-- The constants of a GUID are an outline. -/
theorem isOutline_guid {name fieldName source : String} (hname : IsName name.toList)
    (hfield : IsName fieldName.toList) (hsource : IsOneLine source) (g : Guid) {rest : List Step}
    (h : IsOutline rest) :
    IsOutline (textConstant name g.hyphenated :: guidField fieldName source :: rest) := by
  have hconstant : IsCodeLine "public const string " := ⟨⟨'p', _, rfl, rfl⟩, by decide⟩
  have hreadonly : IsCodeLine "public static readonly System.Guid " :=
    ⟨⟨'p', _, rfl, rfl⟩, by decide⟩
  refine .line _ _ (isCodeLine_assignment hconstant hname (by decide) ?_ (by decide)) ?_
  · exact isOneLine_hyphenated g
  · exact .line _ _ (isCodeLine_assignment hreadonly hfield (by decide) hsource (by decide)) h

theorem isOutline_idConstants {ids : List (Constant CommandId)}
    (h : ∀ id ∈ ids, IsName id.name.toList) : IsOutline (ids.map idConstant) := by
  have hconstant : IsCodeLine "public const int " := ⟨⟨'p', _, rfl, rfl⟩, by decide⟩
  induction ids with
  | nil => exact .done
  | cons id ids ih =>
      refine .line _ _ ?_ (ih fun i hi => h i (List.mem_cons_of_mem id hi))
      exact isCodeLine_assignment hconstant (h id List.mem_cons_self) (by decide)
        (isOneLine_expression id.value) (by decide)

end Outlines

section Files

/-- Whether a line, given without indentation, holds no markup of its own if it is
    documentation. -/
def IsSafeRemark (line : List Char) : Prop :=
  "///".toList <+: line → ∃ inner, isRemarkText inner = true ∧
    line = "/// <summary>".toList ++ (inner ++ "</summary>".toList)

/-- What the lines behind the preamble of a file must be that conveys certain declarations. -/
structure Conveys (size : Nat) (items : List (Nat × Item)) (lines : List (List Char)) : Prop where
  /-- The number of lines is that of the declarations, whatever the names are. -/
  length : lines.length = size
  /-- Braces are balanced, and each line is indented by the braces around it. -/
  nested : IsNested 0 lines
  /-- Documentation holds no markup of its own. -/
  documented : ∀ line ∈ lines, IsSafeRemark (unindented line)
  /-- The lines declare what they should, in the same order and at the same depths. -/
  declares : itemsIn lines = items

/-- Whether the lines of a file are the preamble and behind it lines that convey declarations. -/
def File.Conveys (languageVersion : String) (size : Nat) (items : List (Nat × Item))
    (file : File) : Prop :=
  ∃ lines, codeLines file.content.toList =
      (linesAt 0 (preamble languageVersion)).map String.toList ++ lines ∧
    Source.Conveys size items lines

theorem isSafeRemark_of_ne {c : Char} (h : c ≠ '/') (cs : List Char) : IsSafeRemark (c :: cs) := by
  intro hslashes
  have hfirst : '/' = c := (List.cons_prefix_cons.mp hslashes).1
  exact absurd hfirst.symm h

theorem isSafeRemark_remarkLine {text : String} (h : isRemarkText text.toList = true) :
    IsSafeRemark (remarkLine text).toList := by
  intro _
  refine ⟨text.toList, h, ?_⟩
  rw [remarkLine, String.toList_append, String.toList_append, List.append_assoc]

/-- The texts of an outline that are documentation hold no markup of their own. -/
theorem IsOutline.isSafeRemark {steps : List Step} (h : IsOutline steps) :
    ∀ text ∈ steps.flatMap Step.texts, IsSafeRemark text.toList := by
  refine h.forall_texts (fun text hcode => ?_) (fun _ hsafe _ => isSafeRemark_remarkLine hsafe)
    (isSafeRemark_of_ne (by decide) _) (isSafeRemark_of_ne (by decide) _)
  -- A line of code begins with a letter, so it is not documentation.
  rcases hcode.1 with ⟨c, cs, hchars, hc⟩
  rw [hchars]
  refine isSafeRemark_of_ne ?_ cs
  rintro rfl
  exact absurd hc (by decide)

/-- The lines of an outline convey what the outline declares. -/
theorem IsOutline.conveys {steps : List Step} (h : IsOutline steps) :
    Conveys (lineCount steps) (declared 0 steps) ((linesAt 0 steps).map String.toList) := by
  refine ⟨?_, ?_, ?_, rfl⟩
  · rw [List.length_map, length_linesAt]
  · have hnested := (h.isNested 0 []).mpr rfl
    rw [List.append_nil] at hnested
    exact hnested
  · intro line hline
    rcases List.mem_map.mp hline with ⟨_, hmem, rfl⟩
    rcases exists_of_mem_linesAt 0 hmem with ⟨k, text, htext, rfl⟩
    rw [unindented_indented (h.isFlush text htext)]
    exact h.isSafeRemark text htext

/-- The preamble is in front of the lines of an outline, and has no other lines in it. -/
theorem linesAt_preamble (languageVersion : String) (outline : List Step) :
    linesAt 0 (preamble languageVersion ++ outline) =
      linesAt 0 (preamble languageVersion) ++ linesAt 0 outline := by
  rw [preamble]
  by_cases hnullable : knowsNullable languageVersion = true
  · rw [if_pos hnullable]
    rfl
  · rw [if_neg hnullable]
    rfl

theorem isOneLine_preamble (languageVersion : String) :
    ∀ line ∈ linesAt 0 (preamble languageVersion), IsOneLine line := by
  rw [preamble]
  by_cases hnullable : knowsNullable languageVersion = true
  · rw [if_pos hnullable]
    decide
  · rw [if_neg hnullable]
    decide

/-- A file conveys what its class declares, and has seven lines around its members. -/
theorem conveys_classFile {namespaceName className documentation : String} {members : List Step}
    (hspace : IsOneLine namespaceName) (hname : IsName className.toList)
    (hsafe : isRemarkText documentation.toList = true) (hdocumentation : IsOneLine documentation)
    (hmembers : IsOutline members) (languageVersion name : String) :
    (classFile namespaceName languageVersion name documentation className members).Conveys
      languageVersion (7 + lineCount members) ((1, .opened className) :: declared 2 members) := by
  have hclass := isOutline_classSteps hmembers hsafe hdocumentation hname
  have houtline := isOutline_namespaceSteps hclass hspace
  -- Three lines for the namespace and four for the class.
  have hcount : lineCount (namespaceSteps namespaceName
      (classSteps documentation className members)) = 7 + lineCount members := by
    simp only [namespaceSteps, classSteps, summary, lineCount_cons, lineCount_append, Step.texts,
      List.length_cons, List.length_nil]
    have hnone : lineCount [] = 0 := rfl
    omega
  -- The class stands one level deep, and its members two.
  have hdeclared := (declared_namespaceSteps hclass 0 namespaceName).trans
    (declared_classSteps hmembers 1 documentation className)
  refine ⟨(linesAt 0 (namespaceSteps namespaceName
    (classSteps documentation className members))).map String.toList, ?_, ?_⟩
  · rw [classFile, render, codeLines_joinLines, linesAt_preamble, List.map_append]
    intro line hline
    rw [linesAt_preamble, List.mem_append] at hline
    rcases hline with hline | hline
    · exact isOneLine_preamble languageVersion line hline
    · exact houtline.isOneLine 0 line hline
  · rw [← hcount, ← hdeclared]
    exact houtline.conveys

end Files

end Source

end PackageSymbols

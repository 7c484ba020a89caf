import Mathlib.Algebra.Ring.Nat
import PackageSymbols.Proofs.Scanning
import PackageSymbols.Source.File

/-!
# Lines of Generated Code

A compiler sees a file as lines that end at line terminators, of which a line
feed is only one. `codeLines` cuts a text the way a compiler does, and a text
that was joined from lines is cut into the same lines as long as no line holds a
terminator of its own.

What the lines of an outline look like follows from the shape of the outline.
`IsOutline` is that shape: lines of code, documentation, and blocks, one in
another. Lines of code begin with a letter, so none of them is taken for a brace
or for documentation, and where a line of the file begins tells its depth. Each
property of the lines is then one induction along the shape.

## Main definitions

* `codeLines`: The lines of a text.
* `indentation`, `unindented`: The spaces in front of a line, and the rest.
* `IsNested`: Braces are balanced and lines indented by the braces around them.
* `isRemarkText`: A text without markup of its own.
* `IsOutline`: Outlines of lines of code, documentation and blocks.

## Theorems

* `codeLines_joinLines_eq_flatMap`: Lines that are joined are cut one by one.
* `codeLines_joinLines`: Lines without terminators are cut again.
* `IsOutline.linesAt_append`: What follows an outline has the same depth.
* `IsOutline.isNested`: An outline is nested as its lines say.
* `length_linesAt`: How many lines an outline has does not depend on its depth.
-/

namespace PackageSymbols

namespace Source

/-- The lines of a text behind a line that is being read, which is given in reverse. A carriage
    return and a line feed together end one line. -/
def codeLinesFrom (line : List Char) : List Char → List (List Char)
  | [] => if line.isEmpty then [] else [line.reverse]
  | '\r' :: '\n' :: cs => line.reverse :: codeLinesFrom [] cs
  | c :: cs =>
      if isLineTerminator c then line.reverse :: codeLinesFrom [] cs
      else codeLinesFrom (c :: line) cs

/-- The lines of a text. What follows the last terminator is a line unless it is empty. -/
def codeLines (cs : List Char) : List (List Char) :=
  codeLinesFrom [] cs

/-- How many spaces are in front of a line. -/
def indentation (line : List Char) : Nat :=
  (line.takeWhile (· == ' ')).length

/-- A line without the spaces in front. -/
def unindented (line : List Char) : List Char :=
  line.dropWhile (· == ' ')

/-- Whether braces on lines of their own are balanced, `depth` of them being open at the
    beginning, and every line is indented by four spaces for each brace around it. -/
def IsNested : (depth : Nat) → List (List Char) → Prop
  | depth, [] => depth = 0
  | depth, line :: rest =>
      if unindented line = ['\x7b'] then indentation line = 4 * depth ∧ IsNested (depth + 1) rest
      else if unindented line = ['\x7d'] then
        0 < depth ∧ indentation line = 4 * (depth - 1) ∧ IsNested (depth - 1) rest
      else indentation line = 4 * depth ∧ IsNested depth rest

/-- What may follow an ampersand in documentation. -/
def entities : List (List Char) :=
  ["amp;".toList, "lt;".toList, "gt;".toList]

/-- Whether a text holds no angle bracket and every ampersand in it begins an entity. -/
def isRemarkText : List Char → Bool
  | [] => true
  | c :: cs =>
      (if c = '&' then entities.any (·.isPrefixOf cs) else c != '<' && c != '>') &&
        isRemarkText cs

/-- Whether a text holds no line terminator. -/
def IsOneLine (s : String) : Prop :=
  ∀ c ∈ s.toList, isLineTerminator c = false

instance (s : String) : Decidable (IsOneLine s) :=
  List.decidableBAll (fun c => isLineTerminator c = false) s.toList

/-- Whether a text can be a line of code: it begins with a letter and is one line. -/
def IsCodeLine (s : String) : Prop :=
  (∃ c cs, s.toList = c :: cs ∧ c.isAlpha = true) ∧ IsOneLine s

/-- Outlines of lines of code, documentation and blocks. -/
inductive IsOutline : List Step → Prop where
  /-- Nothing. -/
  | done : IsOutline []
  /-- A line of code. -/
  | line (text : String) (rest : List Step) (htext : IsCodeLine text) (hrest : IsOutline rest) :
      IsOutline (.line text :: rest)
  /-- A line of documentation. -/
  | remark (text : String) (rest : List Step) (hsafe : isRemarkText text.toList = true)
      (htext : IsOneLine text) (hrest : IsOutline rest) : IsOutline (summary text :: rest)
  /-- A block under a header. -/
  | block (header : String) (inner rest : List Step) (hheader : IsCodeLine header)
      (hinner : IsOutline inner) (hrest : IsOutline rest) :
      IsOutline (.opening header :: (inner ++ .closing :: rest))

section Cutting

theorem codeLinesFrom_cons {c : Char} (hc : isLineTerminator c = false) (line cs : List Char) :
    codeLinesFrom line (c :: cs) = codeLinesFrom (c :: line) cs := by
  rw [codeLinesFrom, if_neg (by rw [hc]; exact Bool.false_ne_true)]
  -- A carriage return is a terminator of its own, so no pair of terminators can begin here.
  rintro rest rfl
  exact absurd hc (by decide)

theorem codeLinesFrom_terminator {c : Char} (hc : isLineTerminator c = true) {cs : List Char}
    (hpair : c = '\r' → cs.head? ≠ some '\n') (line : List Char) :
    codeLinesFrom line (c :: cs) = line.reverse :: codeLinesFrom [] cs := by
  rw [codeLinesFrom, if_pos hc]
  rintro rest rfl rfl
  exact hpair rfl rfl

theorem head?_ne_of_not_pair {c : Char} {cs : List Char}
    (hpair : ∀ rest, c = '\r' → cs = '\n' :: rest → False) (hreturn : c = '\r') :
    cs.head? ≠ some '\n' := by
  intro he
  rcases List.head?_eq_some_iff.mp he with ⟨rest, hrest⟩
  exact hpair rest hreturn hrest

theorem codeLinesFrom_append (line cs rest : List Char)
    (h : ∀ c ∈ cs, isLineTerminator c = false) :
    codeLinesFrom line (cs ++ rest) = codeLinesFrom (cs.reverse ++ line) rest := by
  induction cs generalizing line with
  | nil => rfl
  | cons c cs ih =>
      rw [List.cons_append, codeLinesFrom_cons (h c List.mem_cons_self),
        ih _ fun d hd => h d (List.mem_cons_of_mem c hd), List.reverse_cons, List.append_assoc,
        List.singleton_append]

theorem codeLinesFrom_lineFeed (line rest : List Char) :
    codeLinesFrom line ('\n' :: rest) = line.reverse :: codeLinesFrom [] rest :=
  codeLinesFrom_terminator (by decide) (fun he => absurd he (by decide)) line

/-- A text is cut behind every line feed, whatever is in front of it. -/
theorem codeLinesFrom_append_lineFeed (line cs rest : List Char) :
    codeLinesFrom line (cs ++ '\n' :: rest) =
      codeLinesFrom line (cs ++ ['\n']) ++ codeLinesFrom [] rest := by
  -- The cases are those of the scan: the end, a pair, a terminator by itself and any other.
  fun_induction codeLinesFrom line cs with
  | case1 | case2 =>
      rw [List.nil_append, List.nil_append, codeLinesFrom_lineFeed, codeLinesFrom_lineFeed]
      rfl
  | case3 line cs ih =>
      rw [List.cons_append, List.cons_append, List.cons_append, List.cons_append, codeLinesFrom,
        codeLinesFrom, ih]
      rfl
  | case4 line c cs hpair hc ih =>
      rcases cs with _ | ⟨d, ds⟩
      · by_cases hreturn : c = '\r'
        · -- A carriage return at the end and the line feed behind it are one terminator.
          rw [hreturn]
          simp only [List.nil_append, List.cons_append, codeLinesFrom, List.isEmpty_nil, if_true]
        · have hnone : ∀ cs : List Char, c = '\r' → cs.head? ≠ some '\n' :=
            fun _ he => absurd he hreturn
          rw [List.cons_append, codeLinesFrom_terminator hc (hnone _), List.cons_append,
            codeLinesFrom_terminator hc (hnone _), ih]
          rfl
      · have hhead : c = '\r' → (d :: ds).head? ≠ some '\n' := head?_ne_of_not_pair hpair
        have hnone : ∀ cs : List Char, c = '\r' → (d :: cs).head? ≠ some '\n' := fun _ => hhead
        rw [List.cons_append, List.cons_append, codeLinesFrom_terminator hc (hnone _),
          List.cons_append, List.cons_append, codeLinesFrom_terminator hc (hnone _),
          ← List.cons_append, ih]
        rfl
  | case5 line c cs _ hc ih =>
      have hkept : isLineTerminator c = false := Bool.eq_false_iff.mpr hc
      rw [List.cons_append, List.cons_append, codeLinesFrom_cons hkept, codeLinesFrom_cons hkept,
        ih]

/-- No line holds a terminator, if the line that is being read holds none. -/
theorem isLineTerminator_of_mem_codeLinesFrom (line cs : List Char)
    (hline : ∀ c ∈ line, isLineTerminator c = false) :
    ∀ l ∈ codeLinesFrom line cs, ∀ c ∈ l, isLineTerminator c = false := by
  have hreverse : ∀ line : List Char, (∀ c ∈ line, isLineTerminator c = false) →
      ∀ c ∈ line.reverse, isLineTerminator c = false :=
    fun _ h c hc => h c (List.mem_reverse.mp hc)
  -- What holds of the line that is being read is carried through the scan.
  fun_induction codeLinesFrom line cs with
  | case1 => exact fun _ hl => absurd hl List.not_mem_nil
  | case2 line =>
      intro l hl
      rw [List.mem_singleton.mp hl]
      exact hreverse line hline
  | case3 line cs ih | case4 line c cs _ _ ih =>
      intro l hl
      rcases List.mem_cons.mp hl with rfl | hl
      · exact hreverse line hline
      · exact ih (fun _ hc => absurd hc List.not_mem_nil) l hl
  | case5 line c cs _ hc ih =>
      refine ih fun d hd => ?_
      rcases List.mem_cons.mp hd with rfl | hd
      · exact Bool.eq_false_iff.mpr hc
      · exact hline d hd

theorem toList_joinLines_cons (line : String) (lines : List String) :
    (joinLines (line :: lines)).toList = line.toList ++ '\n' :: (joinLines lines).toList := by
  simp only [joinLines, List.map_cons, String.join_cons, String.toList_append, List.append_assoc]
  rfl

/-- Joined lines are cut one by one, also those that hold terminators. -/
theorem codeLines_joinLines_eq_flatMap (lines : List String) :
    codeLines (joinLines lines).toList =
      lines.flatMap fun line => codeLines (line.toList ++ ['\n']) := by
  induction lines with
  | nil => rfl
  | cons line lines ih =>
      rw [toList_joinLines_cons, codeLines, codeLinesFrom_append_lineFeed, List.flatMap_cons, ← ih,
        codeLines, codeLines]

theorem codeLines_lineFeed {line : String} (h : IsOneLine line) :
    codeLines (line.toList ++ ['\n']) = [line.toList] := by
  rw [codeLines, codeLinesFrom_append _ _ _ h, codeLinesFrom_lineFeed, List.append_nil,
    List.reverse_reverse]
  rfl

/-- The first of joined lines is cut off again, whatever the others are. -/
theorem codeLines_joinLines_cons {line : String} (h : IsOneLine line) (lines : List String) :
    codeLines (joinLines (line :: lines)).toList =
      line.toList :: codeLines (joinLines lines).toList := by
  rw [codeLines_joinLines_eq_flatMap, List.flatMap_cons, codeLines_lineFeed h,
    ← codeLines_joinLines_eq_flatMap, List.singleton_append]

/-- Lines that are joined are cut again. -/
theorem codeLines_joinLines {lines : List String} (h : ∀ line ∈ lines, IsOneLine line) :
    codeLines (joinLines lines).toList = lines.map String.toList := by
  induction lines with
  | nil => rfl
  | cons line lines ih =>
      rw [codeLines_joinLines_cons (h line List.mem_cons_self), List.map_cons,
        ih fun l hl => h l (List.mem_cons_of_mem line hl)]

end Cutting

section Lines

/-- The texts that a step puts on lines, without indentation. -/
def Step.texts : Step → List String
  | .line text => [text]
  | .blank => [""]
  | .opening header => [header, "\x7b"]
  | .closing => ["\x7d"]

/-- Whether a text begins with something else than a space. -/
def IsFlush (s : String) : Prop :=
  ∃ c cs, s.toList = c :: cs ∧ c ≠ ' '

theorem toList_indented (depth : Nat) (text : String) :
    (indented depth text).toList = List.replicate (4 * depth) ' ' ++ text.toList := by
  rw [indented, String.toList_append, String.toList_ofList]

theorem beq_space_of_mem_replicate {n : Nat} : ∀ c ∈ List.replicate n ' ', (c == ' ') = true :=
  fun _ hc => beq_iff_eq.mpr (List.eq_of_mem_replicate hc)

theorem unindented_indented {text : String} (h : IsFlush text) (depth : Nat) :
    unindented (indented depth text).toList = text.toList := by
  rcases h with ⟨c, cs, htext, hc⟩
  rw [toList_indented, htext]
  exact dropWhile_append_cons beq_space_of_mem_replicate (beq_eq_false_iff_ne.mpr hc) cs

theorem indentation_indented {text : String} (h : IsFlush text) (depth : Nat) :
    indentation (indented depth text).toList = 4 * depth := by
  rcases h with ⟨c, cs, htext, hc⟩
  rw [toList_indented, indentation, htext, takeWhile_append_cons beq_space_of_mem_replicate
    (beq_eq_false_iff_ne.mpr hc), List.length_replicate]

theorem isOneLine_append {s t : String} (hs : IsOneLine s) (ht : IsOneLine t) :
    IsOneLine (s ++ t) := by
  intro c hc
  rw [String.toList_append, List.mem_append] at hc
  rcases hc with hc | hc
  · exact hs c hc
  · exact ht c hc

theorem isOneLine_indented {text : String} (h : IsOneLine text) (depth : Nat) :
    IsOneLine (indented depth text) := by
  intro c hc
  rw [toList_indented, List.mem_append] at hc
  rcases hc with hc | hc
  · rw [List.eq_of_mem_replicate hc]
    decide
  · exact h c hc

/-- Every line of an outline is one of its texts with some indentation. -/
theorem exists_of_mem_linesAt {steps : List Step} {line : String} :
    ∀ depth, line ∈ linesAt depth steps →
      ∃ k, ∃ text ∈ steps.flatMap Step.texts, line = indented k text := by
  induction steps with
  | nil => exact fun _ h => absurd h List.not_mem_nil
  | cons step steps ih =>
      intro depth h
      -- The depth of the rest depends on the step, so it is kept open.
      have hrest : ∀ k, line ∈ linesAt k steps →
          ∃ k, ∃ text ∈ (step :: steps).flatMap Step.texts, line = indented k text := by
        intro k hk
        rcases ih k hk with ⟨j, text, htext, hline⟩
        exact ⟨j, text, List.mem_flatMap.mpr ((List.mem_flatMap.mp htext).imp fun s hs =>
          ⟨List.mem_cons_of_mem step hs.1, hs.2⟩), hline⟩
      have hfirst : ∀ text ∈ step.texts, text ∈ (step :: steps).flatMap Step.texts :=
        fun text ht => List.mem_flatMap.mpr ⟨step, List.mem_cons_self, ht⟩
      cases step with
      | line text =>
          rcases List.mem_cons.mp h with rfl | h
          · exact ⟨depth, text, hfirst text List.mem_cons_self, rfl⟩
          · exact hrest depth h
      | blank =>
          rcases List.mem_cons.mp h with rfl | h
          · exact ⟨0, "", hfirst "" List.mem_cons_self, rfl⟩
          · exact hrest depth h
      | opening header =>
          rcases List.mem_cons.mp h with rfl | h
          · exact ⟨depth, header, hfirst header List.mem_cons_self, rfl⟩
          · rcases List.mem_cons.mp h with rfl | h
            · exact ⟨depth, _, hfirst "\x7b" (List.mem_cons_of_mem _ List.mem_cons_self), rfl⟩
            · exact hrest (depth + 1) h
      | closing =>
          rcases List.mem_cons.mp h with rfl | h
          · exact ⟨depth - 1, _, hfirst "\x7d" List.mem_cons_self, rfl⟩
          · exact hrest (depth - 1) h

/-- How many lines an outline has. -/
def lineCount (steps : List Step) : Nat :=
  (steps.flatMap Step.texts).length

theorem lineCount_cons (step : Step) (steps : List Step) :
    lineCount (step :: steps) = step.texts.length + lineCount steps := by
  rw [lineCount, List.flatMap_cons, List.length_append, lineCount]

theorem lineCount_append (steps more : List Step) :
    lineCount (steps ++ more) = lineCount steps + lineCount more := by
  rw [lineCount, List.flatMap_append, List.length_append, lineCount, lineCount]

theorem lineCount_flatMap {α : Type} (steps : α → List Step) (members : List α) :
    lineCount (members.flatMap steps) = (members.map fun m => lineCount (steps m)).sum := by
  induction members with
  | nil => rfl
  | cons m members ih =>
      rw [List.flatMap_cons, lineCount_append, ih, List.map_cons, List.sum_cons]

theorem length_linesAt {steps : List Step} :
    ∀ depth, (linesAt depth steps).length = lineCount steps := by
  induction steps with
  | nil => exact fun _ => rfl
  | cons step steps ih =>
      intro depth
      rw [lineCount_cons]
      cases step with
      | line text =>
          rw [linesAt, List.length_cons, ih, Step.texts, List.length_singleton, Nat.add_comm]
      | blank =>
          rw [linesAt, List.length_cons, ih, Step.texts, List.length_singleton, Nat.add_comm]
      | opening header =>
          rw [linesAt, List.length_cons, List.length_cons, ih, Nat.add_assoc, Nat.add_comm]
          rfl
      | closing =>
          rw [linesAt, List.length_cons, ih, Step.texts, List.length_singleton, Nat.add_comm]

end Lines

section Shape

theorem isFlush_of_isCodeLine {s : String} (h : IsCodeLine s) : IsFlush s := by
  rcases h.1 with ⟨c, cs, hs, hc⟩
  refine ⟨c, cs, hs, ?_⟩
  rintro rfl
  exact absurd hc (by decide)

/-- The text of a line of documentation. -/
def remarkLine (text : String) : String :=
  "/// <summary>" ++ text ++ "</summary>"

theorem toList_remarkLine (text : String) :
    (remarkLine text).toList = '/' :: ("// <summary>" ++ text ++ "</summary>").toList := by
  rw [remarkLine]
  simp only [String.toList_append]
  rfl

theorem isFlush_remarkLine (text : String) : IsFlush (remarkLine text) :=
  ⟨'/', _, toList_remarkLine text, by decide⟩

theorem remarkLine_ne {text : String} {c : Char} (h : c ≠ '/') (cs : List Char) :
    (remarkLine text).toList ≠ c :: cs := by
  rw [toList_remarkLine]
  intro he
  exact h (List.cons.inj he).1.symm

theorem isFlush_opening : IsFlush "\x7b" :=
  ⟨'\x7b', [], rfl, by decide⟩

theorem isFlush_closing : IsFlush "\x7d" :=
  ⟨'\x7d', [], rfl, by decide⟩

namespace IsOutline

variable {steps : List Step}

/-- What holds of lines of code, of documentation and of braces holds of all texts of an
    outline. -/
theorem forall_texts (h : IsOutline steps) {P : String → Prop}
    (hcode : ∀ text, IsCodeLine text → P text)
    (hremark : ∀ text, isRemarkText text.toList = true → IsOneLine text → P (remarkLine text))
    (hopening : P "\x7b") (hclosing : P "\x7d") : ∀ text ∈ steps.flatMap Step.texts, P text := by
  induction h with
  | done => exact fun _ ht => absurd ht List.not_mem_nil
  | line text rest htext _ ih =>
      intro t ht
      rcases List.mem_cons.mp ht with rfl | ht
      · exact hcode t htext
      · exact ih t ht
  | remark text rest hsafe htext _ ih =>
      intro t ht
      rcases List.mem_cons.mp ht with rfl | ht
      · exact hremark text hsafe htext
      · exact ih t ht
  | block header inner rest hheader _ _ ihInner ihRest =>
      intro t ht
      -- A block is its header, a brace, what is inside, a brace and what is behind.
      rw [List.flatMap_cons, List.flatMap_append, List.flatMap_cons] at ht
      rcases List.mem_append.mp ht with ht | ht
      · rcases List.mem_cons.mp ht with rfl | ht
        · exact hcode t hheader
        · rw [List.mem_singleton.mp ht]
          exact hopening
      · rcases List.mem_append.mp ht with ht | ht
        · exact ihInner t ht
        · rcases List.mem_cons.mp ht with rfl | ht
          · exact hclosing
          · exact ihRest t ht

theorem isFlush (h : IsOutline steps) : ∀ text ∈ steps.flatMap Step.texts, IsFlush text :=
  h.forall_texts (fun _ => isFlush_of_isCodeLine) (fun text _ _ => isFlush_remarkLine text)
    isFlush_opening isFlush_closing

/-- No line of an outline holds a line terminator. -/
theorem isOneLine (h : IsOutline steps) (depth : Nat) :
    ∀ line ∈ linesAt depth steps, IsOneLine line := by
  intro line hline
  rcases exists_of_mem_linesAt depth hline with ⟨k, text, htext, rfl⟩
  refine isOneLine_indented ?_ k
  exact h.forall_texts (fun _ hcode => hcode.2)
    (fun _ _ hremark => isOneLine_append (isOneLine_append (by decide) hremark) (by decide))
    (by decide) (by decide) text htext

/-- What follows an outline has the depth that the outline had. -/
theorem linesAt_append (h : IsOutline steps) : ∀ (depth : Nat) (more : List Step),
    linesAt depth (steps ++ more) = linesAt depth steps ++ linesAt depth more := by
  induction h with
  | done => exact fun _ _ => rfl
  | line text rest _ _ ih =>
      intro depth more
      rw [List.cons_append, linesAt, linesAt, ih, List.cons_append]
  | remark text rest _ _ _ ih =>
      intro depth more
      rw [List.cons_append, summary, linesAt, linesAt, ih, List.cons_append]
  | block header inner rest _ _ _ ihInner ihRest =>
      intro depth more
      -- What is inside is one level deeper, and the closing brace is on the level of the header.
      rw [List.cons_append, List.append_assoc, List.cons_append, linesAt, linesAt, ihInner, ihInner,
        linesAt, linesAt, Nat.add_sub_cancel, ihRest]
      simp only [List.cons_append, List.append_assoc]

/-- The lines of a block. -/
theorem linesAt_block {inner : List Step} (h : IsOutline inner) (depth : Nat) (header : String)
    (rest : List Step) :
    linesAt depth (.opening header :: (inner ++ .closing :: rest)) =
      indented depth header :: indented depth "\x7b" ::
        (linesAt (depth + 1) inner ++ indented depth "\x7d" :: linesAt depth rest) := by
  rw [linesAt, h.linesAt_append, linesAt, Nat.add_sub_cancel]

end IsOutline

theorem isNested_cons {text : String} (hflush : IsFlush text) (hopening : text.toList ≠ ['\x7b'])
    (hclosing : text.toList ≠ ['\x7d']) (depth : Nat) (lines : List (List Char)) :
    IsNested depth ((indented depth text).toList :: lines) ↔ IsNested depth lines := by
  rw [IsNested, unindented_indented hflush, indentation_indented hflush, if_neg hopening,
    if_neg hclosing]
  exact ⟨fun h => h.2, fun h => ⟨rfl, h⟩⟩

theorem isNested_cons_code {text : String} (h : IsCodeLine text) (depth : Nat)
    (lines : List (List Char)) :
    IsNested depth ((indented depth text).toList :: lines) ↔ IsNested depth lines := by
  rcases h.1 with ⟨c, cs, htext, hc⟩
  refine isNested_cons (isFlush_of_isCodeLine h) ?_ ?_ depth lines
  · intro he
    rw [he, List.cons.injEq] at htext
    rw [← htext.1] at hc
    exact absurd hc (by decide)
  · intro he
    rw [he, List.cons.injEq] at htext
    rw [← htext.1] at hc
    exact absurd hc (by decide)

/-- The braces of an outline are balanced and its lines indented by them. -/
theorem IsOutline.isNested {steps : List Step} (h : IsOutline steps) :
    ∀ (depth : Nat) (lines : List (List Char)),
      IsNested depth ((linesAt depth steps).map String.toList ++ lines) ↔
        IsNested depth lines := by
  induction h with
  | done => exact fun _ _ => Iff.rfl
  | line text rest htext _ ih =>
      intro depth lines
      rw [linesAt, List.map_cons, List.cons_append, isNested_cons_code htext, ih]
  | remark text rest _ _ _ ih =>
      intro depth lines
      rw [summary, linesAt, List.map_cons, List.cons_append]
      -- Documentation begins with a slash, so it is no brace.
      exact (isNested_cons (isFlush_remarkLine text) (remarkLine_ne (by decide) [])
        (remarkLine_ne (by decide) []) depth _).trans (ih depth lines)
  | block header inner rest hheader hinner _ ihInner ihRest =>
      intro depth lines
      rw [hinner.linesAt_block, List.map_cons, List.map_cons, List.map_append, List.map_cons,
        List.cons_append, List.cons_append, List.append_assoc, List.cons_append,
        isNested_cons_code hheader, IsNested, unindented_indented isFlush_opening,
        indentation_indented isFlush_opening, if_pos (by decide), ihInner, IsNested,
        unindented_indented isFlush_closing, indentation_indented isFlush_closing,
        if_neg (by decide), if_pos (by decide), Nat.add_sub_cancel, ihRest]
      -- The two braces go up and down one level, and both stand at the depth of the header.
      exact ⟨fun h => h.2.2.2, fun h => ⟨rfl, Nat.succ_pos depth, rfl, h⟩⟩

end Shape

end Source

end PackageSymbols

import PackageSymbols.Proofs.Manifest.RoundTrip
import PackageSymbols.Proofs.Source.Emission

/-!
# Line Breaks in Manifests

A string literal keeps the line terminators of the text that it quotes. So a
value of a manifest with a line break in it breaks its constant over two lines,
where no literal may be broken, and each further break adds a line. Only blanks
at the ends of two of the values are taken away when a manifest is read, and so
there are manifests that are read and break the file they lead to.

What is in the file is then known line by line. A line feed ends every line that
is written, whatever there was in it, and the two terminators that end one line
are never put next to each other, since every value is in quotes.

## Main definitions

* `lineEnds`: How many lines end in a text.
* `constantLine`, `membersLines`: A constant of a manifest on a line of its own,
  and constants with their documentation.
* `codeLineCount`: How many lines of code some lines make.

## Theorems

* `lineEnds_literalChars`, `isOneLine_literal_iff`: A literal keeps the line
  terminators of its text.
* `codeLineCount_membersLines`: How many lines constants make.
* `manifestFile_lines`: A constant is on one line exactly if its value is one,
  and the file has a line more for each line that ends in a value.
* `not_forall_constantLine_mem`: A manifest that is read can break its file.
-/

namespace PackageSymbols

namespace Source

/-- How many lines end in a text. A carriage return and a line feed together end one. -/
def lineEnds : List Char → Nat
  | [] => 0
  | '\r' :: '\n' :: cs => lineEnds cs + 1
  | c :: cs => if isLineTerminator c then lineEnds cs + 1 else lineEnds cs

/-- The line of a constant of a manifest. -/
def constantLine (constant : String × String × String) : String :=
  indented 2 ("public const string " ++ constant.2.1 ++ " = \"" ++ literal constant.2.2 ++ "\";")

/-- The lines of a constant with its documentation. -/
def memberLines (constant : String × String × String) : List String :=
  [indented 2 (remarkLine constant.1), constantLine constant]

/-- The lines of constants with an empty line between each two of them. -/
def membersLines (constants : List (String × String × String)) : List String :=
  ((constants.map memberLines).intersperse [""]).flatten

/-- How many lines of code some lines make. -/
def codeLineCount (lines : List String) : Nat :=
  (codeLines (joinLines lines).toList).length

section Ends

theorem lineEnds_cons {c : Char} (hc : isLineTerminator c = false) (cs : List Char) :
    lineEnds (c :: cs) = lineEnds cs := by
  rw [lineEnds, if_neg (by rw [hc]; exact Bool.false_ne_true)]
  rintro rest rfl
  exact absurd hc (by decide)

theorem lineEnds_terminator {c : Char} (hc : isLineTerminator c = true) {cs : List Char}
    (hpair : c = '\r' → cs.head? ≠ some '\n') : lineEnds (c :: cs) = lineEnds cs + 1 := by
  rw [lineEnds, if_pos hc]
  rintro rest rfl rfl
  exact hpair rfl rfl

/-- A text in front of something that is no terminator has a line more than lines end in it, once
    a line feed ends the last. -/
theorem length_codeLinesFrom_append {d : Char} {ds : List Char}
    (h : ∀ c ∈ d :: ds, isLineTerminator c = false) (cs line : List Char) :
    (codeLinesFrom line (cs ++ (d :: ds ++ ['\n']))).length = lineEnds cs + 1 := by
  fun_induction lineEnds cs generalizing line with
  | case1 =>
      rw [List.nil_append, codeLinesFrom_append _ _ _ h, codeLinesFrom_lineFeed]
      rfl
  | case2 cs ih =>
      -- The two terminators are next to each other in the whole as well.
      rw [List.cons_append, List.cons_append, codeLinesFrom, List.length_cons, ih]
  | case3 c cs hpair hc ih =>
      have hnext : c = '\r' → (cs ++ (d :: ds ++ ['\n'])).head? ≠ some '\n' := by
        intro hreturn
        rcases cs with _ | ⟨e, es⟩
        -- What is behind the text does not begin with a line feed.
        · rintro he
          rw [Option.some.inj he] at h
          exact absurd (h '\n' List.mem_cons_self) (by decide)
        · have hhead : (e :: es).head? ≠ some '\n' := head?_ne_of_not_pair hpair hreturn
          exact hhead
      rw [List.cons_append, codeLinesFrom_terminator hc hnext, List.length_cons, ih]
  | case4 c cs _ hc ih =>
      rw [List.cons_append, codeLinesFrom_cons (Bool.eq_false_iff.mpr hc), ih]

end Ends

section Literals

theorem head?_literalChars_ne {cs : List Char} (h : cs.head? ≠ some '\n') :
    (literalChars cs).head? ≠ some '\n' := by
  rcases cs with _ | ⟨c, cs⟩
  · exact h
  · rw [literalChars, List.flatMap_cons, literalChar]
    split
    · exact fun he => absurd (Option.some.inj he) (by decide)
    · exact h

/-- A literal keeps all lines that end in its text. -/
theorem lineEnds_literalChars (cs : List Char) : lineEnds (literalChars cs) = lineEnds cs := by
  have hcons : ∀ (c : Char) (cs : List Char),
      literalChars (c :: cs) = literalChar c ++ literalChars cs := fun _ _ => List.flatMap_cons
  fun_induction lineEnds cs with
  | case1 => rfl
  | case2 cs ih =>
      rw [hcons, hcons]
      exact congrArg (· + 1) ih
  | case3 c cs hpair hc ih =>
      -- No terminator is quoted, and none is put behind another.
      have hplain : ¬(c = '\\' ∨ c = '"') := by
        rintro (rfl | rfl)
        all_goals exact absurd hc (by decide)
      rw [hcons, literalChar, if_neg hplain, List.singleton_append,
        lineEnds_terminator hc fun hreturn =>
          head?_literalChars_ne (head?_ne_of_not_pair hpair hreturn), ih]
  | case4 c cs _ hc ih =>
      have hkept : isLineTerminator c = false := Bool.eq_false_iff.mpr hc
      rw [hcons, literalChar]
      split
      · rw [List.cons_append, List.singleton_append, lineEnds_cons (by decide),
          lineEnds_cons hkept, ih]
      · rw [List.singleton_append, lineEnds_cons hkept, ih]

theorem mem_literalChars_of_mem {c : Char} {cs : List Char} (h : c ∈ cs) : c ∈ literalChars cs := by
  rw [literalChars, List.mem_flatMap]
  refine ⟨c, h, ?_⟩
  rw [literalChar]
  split
  · exact List.mem_cons_of_mem _ List.mem_cons_self
  · exact List.mem_cons_self

/-- A literal is one line exactly if its text is. -/
theorem isOneLine_literal_iff (s : String) : IsOneLine (literal s) ↔ IsOneLine s := by
  rw [IsOneLine, literal, String.toList_ofList, IsOneLine]
  constructor
  · exact fun h c hc => h c (mem_literalChars_of_mem hc)
  · intro h c hc
    rcases List.mem_flatMap.mp hc with ⟨d, hd, hc⟩
    rw [literalChar] at hc
    split at hc
    · rcases List.mem_cons.mp hc with rfl | hc
      · decide
      · rw [List.mem_singleton.mp hc]
        exact h d hd
    · rw [List.mem_singleton.mp hc]
      exact h d hd

end Literals

section Constants

/-- A constant, with its value between other texts. -/
theorem toList_constantLine (constant : String × String × String) :
    (constantLine constant).toList =
      (indented 2 ("public const string " ++ constant.2.1 ++ " = \"")).toList ++
        (literalChars constant.2.2.toList ++ ['"', ';']) := by
  rw [constantLine, toList_indented, toList_indented, String.toList_append, String.toList_append,
    literal, String.toList_ofList]
  simp only [List.append_assoc]
  rfl

theorem isOneLine_front {constant : String × String × String} (hname : IsOneLine constant.2.1) :
    IsOneLine (indented 2 ("public const string " ++ constant.2.1 ++ " = \"")) :=
  isOneLine_indented (isOneLine_append (isOneLine_append (by decide) hname) (by decide)) 2

theorem isOneLine_back : IsOneLine "\";" := by
  decide

theorem isOneLine_constantLine_iff {constant : String × String × String}
    (hname : IsOneLine constant.2.1) :
    IsOneLine (constantLine constant) ↔ IsOneLine constant.2.2 := by
  rw [← isOneLine_literal_iff constant.2.2, IsOneLine, toList_constantLine, IsOneLine, literal,
    String.toList_ofList]
  constructor
  · exact fun h c hc => h c (List.mem_append_right _ (List.mem_append_left _ hc))
  · intro h c hc
    rcases List.mem_append.mp hc with hc | hc
    · exact isOneLine_front hname c hc
    · rcases List.mem_append.mp hc with hc | hc
      · exact h c hc
      · exact isOneLine_back c hc

theorem codeLineCount_append (lines more : List String) :
    codeLineCount (lines ++ more) = codeLineCount lines + codeLineCount more := by
  rw [codeLineCount, codeLines_joinLines_eq_flatMap, List.flatMap_append, List.length_append,
    ← codeLines_joinLines_eq_flatMap, ← codeLines_joinLines_eq_flatMap, codeLineCount,
    codeLineCount]

theorem codeLineCount_of_isOneLine {lines : List String} (h : ∀ line ∈ lines, IsOneLine line) :
    codeLineCount lines = lines.length := by
  rw [codeLineCount, codeLines_joinLines h, List.length_map]

/-- The value of a constant adds the lines that end in it. -/
theorem codeLineCount_constantLine {constant : String × String × String}
    (hname : IsOneLine constant.2.1) :
    codeLineCount [constantLine constant] = lineEnds constant.2.2.toList + 1 := by
  have hend : ∀ c ∈ ['"', ';'], isLineTerminator c = false := isOneLine_back
  have hlines : (joinLines [constantLine constant]).toList =
      (indented 2 ("public const string " ++ constant.2.1 ++ " = \"")).toList ++
        (literalChars constant.2.2.toList ++ (['"', ';'] ++ ['\n'])) := by
    rw [toList_joinLines_cons, toList_constantLine, List.append_assoc, List.append_assoc]
    rfl
  rw [codeLineCount, hlines, codeLines, codeLinesFrom_append _ _ _ (isOneLine_front hname),
    length_codeLinesFrom_append hend, lineEnds_literalChars]

theorem membersLines_cons_cons (c d : String × String × String)
    (constants : List (String × String × String)) :
    membersLines (c :: d :: constants) =
      memberLines c ++ ([""] ++ membersLines (d :: constants)) :=
  rfl

theorem membersLines_singleton (c : String × String × String) :
    membersLines [c] = memberLines c :=
  List.append_nil _

theorem codeLineCount_memberLines {constant : String × String × String}
    (h : IsOneLine constant.1 ∧ IsOneLine constant.2.1) :
    codeLineCount (memberLines constant) = lineEnds constant.2.2.toList + 2 := by
  have hremark : ∀ line ∈ [indented 2 (remarkLine constant.1)], IsOneLine line := by
    intro line hline
    rw [List.mem_singleton.mp hline]
    exact isOneLine_indented (isOneLine_append (isOneLine_append (by decide) h.1) (by decide)) 2
  have hsplit : memberLines constant = [indented 2 (remarkLine constant.1)] ++
    [constantLine constant] := rfl
  rw [hsplit, codeLineCount_append, codeLineCount_of_isOneLine hremark,
    codeLineCount_constantLine h.2, List.length_singleton]
  omega

/-- Constants have three lines each, but the last of them two, and those that end in values. -/
theorem codeLineCount_membersLines {constants : List (String × String × String)}
    (h : ∀ c ∈ constants, IsOneLine c.1 ∧ IsOneLine c.2.1) (hne : constants ≠ []) :
    codeLineCount (membersLines constants) + 1 =
      3 * constants.length + (constants.map fun c => lineEnds c.2.2.toList).sum := by
  induction constants with
  | nil => exact absurd rfl hne
  | cons c constants ih =>
      have hc := codeLineCount_memberLines (h c List.mem_cons_self)
      rcases constants with _ | ⟨d, constants⟩
      · rw [membersLines_singleton, hc]
        simp only [List.length_singleton, List.map_cons, List.map_nil, List.sum_cons, List.sum_nil]
        omega
      · have hblank : codeLineCount [""] = 1 := by decide
        have hrest := ih (fun e he => h e (List.mem_cons_of_mem c he)) (List.cons_ne_nil _ _)
        rw [membersLines_cons_cons, codeLineCount_append, codeLineCount_append, hblank, hc,
          List.map_cons, List.sum_cons, List.length_cons]
        omega

theorem constantLine_mem_membersLines {constants : List (String × String × String)}
    {c : String × String × String} (h : c ∈ constants) :
    constantLine c ∈ membersLines constants := by
  have hown : constantLine c ∈ memberLines c := List.mem_cons_of_mem _ List.mem_cons_self
  induction constants with
  | nil => exact absurd h List.not_mem_nil
  | cons d constants ih =>
      rcases constants with _ | ⟨e, constants⟩
      · rw [membersLines_singleton, ← List.mem_singleton.mp h]
        exact hown
      · rw [membersLines_cons_cons]
        rcases List.mem_cons.mp h with rfl | h
        · exact List.mem_append_left _ hown
        · exact List.mem_append_right _ (List.mem_append_right _ (ih h))

end Constants

section Files

/-- The lines of a file of a manifest in front of its constants, and behind the preamble. -/
def frontLines (namespaceName : String) : List String :=
  [indented 0 ("namespace " ++ namespaceName), indented 0 "\x7b",
   indented 1
     (remarkLine "Defines constants from the <c>source.extension.vsixmanifest</c> file."),
   indented 1 "internal sealed partial class Vsix", indented 1 "\x7b"]

/-- The lines behind its constants. -/
def backLines : List String :=
  [indented 1 "\x7d", indented 0 "\x7d"]

/-- The lines of the file of a manifest. -/
theorem content_manifestFile (namespaceName languageVersion : String) (m : Manifest) :
    (manifestFile namespaceName languageVersion m).content =
      joinLines (linesAt 0 (preamble languageVersion) ++
        (frontLines namespaceName ++ (membersLines (manifestConstants m) ++ backLines))) := by
  rw [manifestFile, classFile, render, linesAt_preamble]
  simp only [namespaceSteps, classSteps, summary, linesAt, List.cons_append, List.append_assoc]
  rfl

theorem isOneLine_of_mem_manifestConstants {m : Manifest} {c : String × String × String}
    (h : c ∈ manifestConstants m) : IsOneLine c.1 ∧ IsOneLine c.2.1 := by
  have hwords : ∀ words ∈ (manifestConstants m).map fun c => (c.1, c.2.1),
      IsOneLine words.1 ∧ IsOneLine words.2 := by
    simp only [manifestConstants, List.map_cons, List.map_nil]
    decide
  exact hwords _ (List.mem_map_of_mem h)

/-- The constant of a value is on a line of its own exactly if the value is one line. -/
theorem constantLine_mem_codeLines_iff {m : Manifest} {c : String × String × String}
    (h : c ∈ manifestConstants m) (namespaceName languageVersion : String) :
    (constantLine c).toList ∈
        codeLines (manifestFile namespaceName languageVersion m).content.toList ↔
      IsOneLine c.2.2 := by
  rw [← isOneLine_constantLine_iff (isOneLine_of_mem_manifestConstants h).2]
  constructor
  · intro hmem
    exact isLineTerminator_of_mem_codeLinesFrom [] _ (fun _ hc => absurd hc List.not_mem_nil) _ hmem
  · intro hline
    rw [content_manifestFile, codeLines_joinLines_eq_flatMap, List.mem_flatMap]
    refine ⟨constantLine c, ?_, ?_⟩
    · exact List.mem_append_right _ (List.mem_append_right _
        (List.mem_append_left _ (constantLine_mem_membersLines h)))
    · rw [codeLines_lineFeed hline]
      exact List.mem_cons_self

/-- There are five lines in front of the constants, as long as the namespace is on one. -/
theorem codeLineCount_frontLines {namespaceName : String} (h : IsOneLine namespaceName) :
    codeLineCount (frontLines namespaceName) = 5 := by
  refine codeLineCount_of_isOneLine fun line hline => ?_
  rcases List.mem_cons.mp hline with rfl | hline
  · exact isOneLine_indented (isOneLine_append (by decide) h) 0
  · have hfixed : ∀ line ∈ (frontLines "").tail, IsOneLine line := by decide
    exact hfixed line hline

/-- A constant is on a line of its own exactly if its value is one line, and a file has a line more
    for each line that ends in a value. -/
theorem manifestFile_lines {namespaceName : String} (h : IsOneLine namespaceName)
    (languageVersion : String) (m : Manifest) :
    let lines := codeLines (manifestFile namespaceName languageVersion m).content.toList
    (∀ c ∈ manifestConstants m, (constantLine c).toList ∈ lines ↔ IsOneLine c.2.2) ∧
      lines.length = lineCount (preamble languageVersion) + 24 +
        ((manifestConstants m).map fun c => lineEnds c.2.2.toList).sum := by
  intro lines
  refine ⟨fun c hc => constantLine_mem_codeLines_iff hc namespaceName languageVersion, ?_⟩
  have hlength : lines.length = codeLineCount (linesAt 0 (preamble languageVersion) ++
      (frontLines namespaceName ++ (membersLines (manifestConstants m) ++ backLines))) := by
    rw [codeLineCount, ← content_manifestFile]
  have hpreamble : codeLineCount (linesAt 0 (preamble languageVersion)) =
      lineCount (preamble languageVersion) := by
    rw [codeLineCount_of_isOneLine (isOneLine_preamble languageVersion), length_linesAt]
  have hback : codeLineCount backLines = 2 := by decide
  have hmembers := codeLineCount_membersLines
    (fun c hc => isOneLine_of_mem_manifestConstants (m := m) hc) (List.cons_ne_nil _ _)
  have hsix : (manifestConstants m).length = 6 := rfl
  rw [hlength, codeLineCount_append, codeLineCount_append, codeLineCount_append, hpreamble,
    codeLineCount_frontLines h, hback]
  omega

/-- A manifest with a line break in a value. -/
def brokenManifest : Manifest where
  id := "tool"
  name := "Tool"
  description := "first\r\nsecond"
  language := "en-US"
  author := "me"
  version := "1.0"

/-- A file without the line of one constant, and with one line more than others. -/
theorem manifestFile_lines_brokenManifest :
    IsOneLine "Tools" ∧
      (∀ c ∈ manifestConstants brokenManifest,
        (constantLine c).toList ∈
          codeLines (manifestFile "Tools" "8.0" brokenManifest).content.toList ↔
            IsOneLine c.2.2) ∧
      (codeLines (manifestFile "Tools" "8.0" brokenManifest).content.toList).length = 30 := by
  have hspace : IsOneLine "Tools" := by decide
  have hlines := manifestFile_lines hspace "8.0" brokenManifest
  refine ⟨hspace, hlines.1, hlines.2.trans ?_⟩
  decide

/-- Not all manifests that are read have each constant on a line of its own. -/
theorem not_forall_constantLine_mem :
    ¬∀ (text : String) (m : Manifest), Manifest.parse text = .ok m →
      ∀ namespaceName languageVersion : String, IsOneLine namespaceName →
        ∀ c ∈ manifestConstants m, (constantLine c).toList ∈
          codeLines (manifestFile namespaceName languageVersion m).content.toList := by
  intro h
  have hparse : Manifest.parse (Manifest.Arrangement.plain brokenManifest).text =
      .ok brokenManifest :=
    Manifest.parseWith_text Markup.readsContent_pieceReader
      (Manifest.describes_plain brokenManifest) (by decide) (by decide)
  have hdescription : ("The description of the extension.", "Description", "first\r\nsecond") ∈
      manifestConstants brokenManifest := by
    decide
  have hmem := h _ _ hparse "Tools" "8.0" (by decide) _ hdescription
  rw [constantLine_mem_codeLines_iff hdescription] at hmem
  exact absurd hmem (by decide)

end Files

end Source

end PackageSymbols

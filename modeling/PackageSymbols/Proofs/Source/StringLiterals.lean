import PackageSymbols.Proofs.Generation.OuterClasses
import PackageSymbols.Proofs.Source.ManifestLines

/-!
# String Literals Are Read Back

A string literal is read by one rule: a backslash takes the next character with
it, and the first quote that no backslash has taken ends the literal. So a value
cannot end its literal early and cannot keep it from ending. Whether a backslash
takes or is taken depends on all that comes before it, but not if one reads along
with the writer: every character of the value was written as one part, and the
reader takes it as one part again, whatever comes next.

The values of a manifest are in one file, and each may hold what looks like a
further constant. They are read one behind the other, the next constant being
looked for behind the literal of the last, where there is nothing that the
manifest says.

## Main definitions

* `LiteralPart`: What stands for one character inside a literal.
* `readLiteral?`: The parts of a literal, and what follows it.
* `replaced`: A text in which one character is written as another text.
* `textConstants`: The constants that are declared in a text, with their values.

## Theorems

* `scanLiteral_append`: A literal is read up to its own closing quote.
* `literalChars_eq_replaced`: A literal is made by two replacements in a row.
* `textConstants_lines`, `textConstants_constantLine`: Lines are passed or read.
* `textConstants_manifestFile`: The values of a manifest are read in order.
* `literals_read_back`: Literals and the constants of manifests are read back.
-/

namespace PackageSymbols

open Markup

namespace Source

/-- What stands for one character inside a string literal. -/
inductive LiteralPart where
  /-- The character itself. -/
  | plain (c : Char)
  /-- A backslash and the character that it takes with it. -/
  | escaped (c : Char)
deriving DecidableEq, Repr

namespace LiteralPart

/-- The characters of a part. -/
def chars : LiteralPart → List Char
  | .plain c => [c]
  | .escaped c => ['\\', c]

/-- The character that a part stands for. -/
def value : LiteralPart → Char
  | .plain c => c
  | .escaped c => c

/-- The part that a character is written as. -/
def ofChar (c : Char) : LiteralPart :=
  if c = '\\' ∨ c = '"' then .escaped c else .plain c

end LiteralPart

/-- Reads on in a literal up to the first quote that no backslash takes. The answer holds the parts
    of the literal and what follows the quote. -/
def scanLiteral : List Char → Option (List LiteralPart × List Char)
  | [] => none
  | ['\\'] => none
  | '"' :: rest => some ([], rest)
  | '\\' :: c :: rest =>
      (scanLiteral rest).map fun found => (.escaped c :: found.1, found.2)
  | c :: rest => (scanLiteral rest).map fun found => (.plain c :: found.1, found.2)

/-- Reads a literal from its opening quote. -/
def readLiteral? : List Char → Option (List LiteralPart × List Char)
  | '"' :: rest => scanLiteral rest
  | _ => none

/-- A text in which one character is written as another text. -/
def replaced (old : Char) (new : List Char) (cs : List Char) : List Char :=
  cs.flatMap fun c => if c = old then new else [c]

/-- What follows a mark where it first stands in a text. -/
def behindFirst? (mark : List Char) : List Char → Option (List Char)
  | [] => none
  | c :: cs =>
      match dropStart? mark (c :: cs) with
      | some rest => some rest
      | none => behindFirst? mark cs

/-- What the declaration of a constant begins with. -/
def constantMark : List Char :=
  "public const string ".toList

/-- The name and the value of a constant, read behind the mark, and what follows its literal. -/
def readConstant? (cs : List Char) : Option ((String × String) × List Char) :=
  (dropStart? " = ".toList (cs.dropWhile (· != ' '))).bind fun literal =>
    (readLiteral? literal).map fun found =>
      ((String.ofList (cs.takeWhile (· != ' ')),
        String.ofList (found.1.map LiteralPart.value)), found.2)

section Lengths

theorem length_lt_of_scanLiteral {cs rest : List Char} {parts : List LiteralPart}
    (h : scanLiteral cs = some (parts, rest)) : rest.length < cs.length := by
  fun_induction scanLiteral cs generalizing parts with
  | case1 => cases h
  | case2 => cases h
  | case3 =>
      cases h
      exact Nat.lt_succ_self _
  | case4 c cs ih =>
      rcases Option.map_eq_some_iff.mp h with ⟨found, hfound, heq⟩
      cases heq
      have := ih hfound
      simp only [List.length_cons]
      omega
  | case5 c cs _ _ _ ih =>
      rcases Option.map_eq_some_iff.mp h with ⟨found, hfound, heq⟩
      cases heq
      have := ih hfound
      simp only [List.length_cons]
      omega

theorem length_lt_of_readLiteral? {cs rest : List Char} {parts : List LiteralPart}
    (h : readLiteral? cs = some (parts, rest)) : rest.length < cs.length := by
  rw [readLiteral?.eq_def] at h
  split at h
  · exact (length_lt_of_scanLiteral h).trans (Nat.lt_succ_self _)
  · cases h

theorem length_le_of_behindFirst? {mark cs rest : List Char}
    (h : behindFirst? mark cs = some rest) : rest.length ≤ cs.length := by
  induction cs with
  | nil => cases h
  | cons c cs ih =>
      rw [behindFirst?] at h
      split at h
      · next hstart =>
          cases h
          rw [dropStart?_eq_some hstart, List.length_append]
          exact Nat.le_add_left _ _
      · exact (ih h).trans (Nat.le_succ _)

theorem length_lt_of_readConstant? {cs rest : List Char} {constant : String × String}
    (h : readConstant? cs = some (constant, rest)) : rest.length < cs.length := by
  rcases Option.bind_eq_some_iff.mp h with ⟨literal, hliteral, hread⟩
  rcases Option.map_eq_some_iff.mp hread with ⟨⟨parts, behind⟩, hparts, heq⟩
  cases heq
  have hname := length_dropWhile_le (· != ' ') cs
  rw [dropStart?_eq_some hliteral, List.length_append] at hname
  exact (length_lt_of_readLiteral? hparts).trans_le ((Nat.le_add_left _ _).trans hname)

end Lengths

/-- The constants that are declared in a text, each looked for behind the literal of the last. -/
def textConstants (cs : List Char) : List (String × String) :=
  match _h : (behindFirst? constantMark cs).bind readConstant? with
  | none => []
  | some (constant, rest) => constant :: textConstants rest
termination_by cs.length
decreasing_by
  rcases Option.bind_eq_some_iff.mp _h with ⟨behind, hbehind, hread⟩
  exact (length_lt_of_readConstant? hread).trans_le (length_le_of_behindFirst? hbehind)

/-- The constants that are declared inside the namespace of a file. -/
def File.textConstants? (file : File) : Option (List (String × String)) :=
  (dropStart? ("namespace " ++ file.namespaceName ++ "\n\x7b\n").toList
    (behindEmptyLine file.content.toList)).map textConstants

section Literals

theorem scanLiteral_cons {c : Char} (hback : c ≠ '\\') (hquote : c ≠ '"') (rest : List Char) :
    scanLiteral (c :: rest) =
      (scanLiteral rest).map fun found => (.plain c :: found.1, found.2) := by
  rw [scanLiteral]
  · exact fun h _ => hback h
  · exact hquote
  · exact fun _ _ h _ => hback h

/-- A literal is read up to its own closing quote, character by character of its value. -/
theorem scanLiteral_append (cs rest : List Char) :
    scanLiteral (literalChars cs ++ '"' :: rest) = some (cs.map LiteralPart.ofChar, rest) := by
  induction cs with
  | nil => rfl
  | cons c cs ih =>
      rw [literalChars, List.flatMap_cons, ← literalChars, literalChar, List.map_cons,
        LiteralPart.ofChar]
      by_cases hc : c = '\\' ∨ c = '"'
      · rw [if_pos hc, if_pos hc, List.append_assoc, List.cons_append, List.singleton_append,
          scanLiteral, ih]
        rfl
      · rw [if_neg hc, if_neg hc, List.append_assoc, List.singleton_append]
        rw [not_or] at hc
        rw [scanLiteral_cons hc.1 hc.2, ih]
        rfl

theorem chars_ofChar (c : Char) : (LiteralPart.ofChar c).chars = literalChar c := by
  rw [LiteralPart.ofChar, literalChar]
  split
  · rfl
  · rfl

theorem value_ofChar (c : Char) : (LiteralPart.ofChar c).value = c := by
  rw [LiteralPart.ofChar]
  split
  · rfl
  · rfl

theorem map_value_ofChar (cs : List Char) :
    (cs.map LiteralPart.ofChar).map LiteralPart.value = cs := by
  rw [List.map_map]
  exact (List.map_congr_left fun c _ => value_ofChar c).trans (List.map_id cs)

/-- A literal is made by two replacements, of backslashes first and then of quotes. -/
theorem literalChars_eq_replaced (cs : List Char) :
    literalChars cs = replaced '"' ['\\', '"'] (replaced '\\' ['\\', '\\'] cs) := by
  rw [literalChars, replaced, replaced, List.flatMap_assoc]
  refine List.flatMap_congr fun c _ => ?_
  rw [literalChar]
  by_cases hback : c = '\\'
  · rw [hback]
    rfl
  · by_cases hquote : c = '"'
    · rw [hquote]
      rfl
    · rw [if_neg hback, if_neg (not_or.mpr ⟨hback, hquote⟩), List.flatMap_singleton, if_neg hquote]

/-- A literal determines its value. -/
theorem literal_injective : Function.Injective literal := by
  intro s t h
  have hchars : literalChars s.toList = literalChars t.toList := String.ofList_injective h
  have hs := scanLiteral_append s.toList []
  rw [hchars, scanLiteral_append, Option.some.injEq, Prod.mk.injEq] at hs
  have hvalues := congrArg (List.map LiteralPart.value) hs.1
  rw [map_value_ofChar, map_value_ofChar] at hvalues
  exact (String.toList_injective hvalues).symm

end Literals

section Constants

/-- A line without the mark is passed. -/
theorem behindFirst?_line {line : List Char} (h : ¬constantMark <:+: line) (rest : List Char) :
    behindFirst? constantMark (line ++ '\n' :: rest) = behindFirst? constantMark rest := by
  induction line with
  | nil => rfl
  | cons c line ih =>
      have hnone : dropStart? constantMark (c :: (line ++ '\n' :: rest)) = none := by
        rw [← Option.not_isSome_iff_eq_none, Option.isSome_iff_exists]
        rintro ⟨behind, hbehind⟩
        have hsplit := dropStart?_eq_some hbehind
        rw [← List.cons_append] at hsplit
        -- No line feed is in the mark, so the mark would have to end on the line.
        rcases List.append_eq_append_iff.mp hsplit with
          ⟨_ | ⟨d, more⟩, hmark, hmore⟩ | ⟨more, hline, _⟩
        · rw [List.append_nil] at hmark
          exact h (hmark ▸ List.infix_rfl)
        · rw [List.cons_append, List.cons.injEq] at hmore
          have hfeed : '\n' ∈ constantMark := by
            rw [hmark, hmore.1]
            exact List.mem_append_right _ List.mem_cons_self
          exact absurd hfeed (by decide)
        · exact h ⟨[], more, hline.symm⟩
      have hrest : ¬constantMark <:+: line := fun hin => h (List.infix_cons hin)
      rw [List.cons_append, behindFirst?, hnone]
      exact ih hrest

theorem textConstants_line {line : List Char} (h : ¬constantMark <:+: line) (rest : List Char) :
    textConstants (line ++ '\n' :: rest) = textConstants rest := by
  rw [textConstants.eq_def, textConstants.eq_def rest, behindFirst?_line h]

theorem textConstants_of_readConstant? {cs behind rest : List Char} {constant : String × String}
    (hbehind : behindFirst? constantMark cs = some behind)
    (hread : readConstant? behind = some (constant, rest)) :
    textConstants cs = constant :: textConstants rest := by
  have hnext : (behindFirst? constantMark cs).bind readConstant? = some (constant, rest) := by
    rw [hbehind, Option.bind_some, hread]
  rw [textConstants]
  split
  · next hnone =>
      rw [hnext] at hnone
      cases hnone
  · next hsome =>
      rw [hnext, Option.some.injEq, Prod.mk.injEq] at hsome
      rw [hsome.1, hsome.2]

/-- The constant of a line is read, whatever its value is, and what follows the line is left. -/
theorem textConstants_constantLine {constant : String × String × String}
    (hname : ∀ c ∈ constant.2.1.toList, (c != ' ') = true) (rest : List Char) :
    textConstants ((constantLine constant).toList ++ '\n' :: rest) =
      constant.2 :: textConstants rest := by
  rcases constant with ⟨remark, name, value⟩
  have hline : (constantLine (remark, name, value)).toList ++ '\n' :: rest =
      List.replicate 8 ' ' ++ (constantMark ++ (name.toList ++ (" = ".toList ++
        ('"' :: (literalChars value.toList ++ '"' :: ([';'] ++ '\n' :: rest)))))) := by
    simp only [toList_constantLine, toList_indented, String.toList_append, List.append_assoc]
    rfl
  have hread : readConstant? (name.toList ++ (" = ".toList ++
      ('"' :: (literalChars value.toList ++ '"' :: ([';'] ++ '\n' :: rest))))) =
        some ((name, value), [';'] ++ '\n' :: rest) := by
    have hspace : " = ".toList ++ ('"' :: (literalChars value.toList ++
        '"' :: ([';'] ++ '\n' :: rest))) = ' ' :: ("= ".toList ++ ('"' ::
          (literalChars value.toList ++ '"' :: ([';'] ++ '\n' :: rest)))) := rfl
    rw [readConstant?, hspace, takeWhile_append_cons hname rfl, dropWhile_append_cons hname rfl,
      ← hspace, dropStart?_append, Option.bind_some, readLiteral?, scanLiteral_append,
      Option.map_some, map_value_ofChar, String.ofList_toList, String.ofList_toList]
  rw [hline, textConstants_of_readConstant? rfl hread, textConstants_line (by decide)]

/-- Constants with their documentation are read one behind the other, and then what follows. -/
theorem textConstants_membersLines {constants : List (String × String × String)}
    (h : ∀ c ∈ constants, ¬constantMark <:+: (indented 2 (remarkLine c.1)).toList ∧
      ∀ d ∈ c.2.1.toList, (d != ' ') = true) (rest : List Char) :
    textConstants ((joinLines (membersLines constants)).toList ++ rest) =
      constants.map Prod.snd ++ textConstants rest := by
  have hmember : ∀ c ∈ constants, ∀ more : List Char,
      textConstants ((joinLines (memberLines c)).toList ++ more) =
        c.2 :: textConstants more := by
    intro c hc more
    have hlines : (joinLines (memberLines c)).toList ++ more =
        (indented 2 (remarkLine c.1)).toList ++ '\n' ::
          ((constantLine c).toList ++ '\n' :: more) := by
      rw [memberLines, toList_joinLines_cons, toList_joinLines_cons]
      simp only [List.append_assoc, List.cons_append]
      rfl
    rw [hlines, textConstants_line (h c hc).1, textConstants_constantLine (h c hc).2]
  induction constants with
  | nil => rfl
  | cons c constants ih =>
      have hc := hmember c List.mem_cons_self
      rcases constants with _ | ⟨d, constants⟩
      · rw [membersLines_singleton, hc]
        rfl
      · have hrest := ih (fun e he => h e (List.mem_cons_of_mem c he))
          fun e he => hmember e (List.mem_cons_of_mem c he)
        have hblank : ∀ more : List Char, textConstants ((joinLines [""]).toList ++ more) =
            textConstants more := @textConstants_line [] (by decide)
        rw [membersLines_cons_cons, joinLines_append, joinLines_append, List.append_assoc,
          List.append_assoc, hc, hblank, hrest]
        rfl

/-- Lines without the mark are passed. -/
theorem textConstants_lines {lines : List String}
    (h : ∀ line ∈ lines, ¬constantMark <:+: line.toList) (rest : List Char) :
    textConstants ((joinLines lines).toList ++ rest) = textConstants rest := by
  induction lines with
  | nil => rfl
  | cons line lines ih =>
      rw [toList_joinLines_cons, List.append_assoc, List.cons_append,
        textConstants_line (h line List.mem_cons_self),
        ih fun more hmore => h more (List.mem_cons_of_mem line hmore)]

theorem mark_of_mem_manifestConstants {m : Manifest} {c : String × String × String}
    (h : c ∈ manifestConstants m) :
    ¬constantMark <:+: (indented 2 (remarkLine c.1)).toList ∧
      ∀ d ∈ c.2.1.toList, (d != ' ') = true := by
  have hwords : ∀ words ∈ (manifestConstants m).map fun c => (c.1, c.2.1),
      ¬constantMark <:+: (indented 2 (remarkLine words.1)).toList ∧
        words.2.toList.all (· != ' ') = true := by
    simp only [manifestConstants, List.map_cons, List.map_nil]
    decide +kernel
  rw [List.forall_mem_map] at hwords
  exact ⟨(hwords c h).1, List.all_eq_true.mp (hwords c h).2⟩

/-- The values of a manifest are read from its file in their order, whatever they are. -/
theorem textConstants_manifestFile (namespaceName languageVersion : String) (m : Manifest) :
    (manifestFile namespaceName languageVersion m).textConstants? =
      some ((manifestConstants m).map Prod.snd) := by
  have hlines : linesAt 1 (classSteps
      "Defines constants from the <c>source.extension.vsixmanifest</c> file." "Vsix"
      (((manifestConstants m).map manifestSteps).intersperse [.blank]).flatten ++ [.closing]) =
      (frontLines "").drop 2 ++ (membersLines (manifestConstants m) ++ backLines) := rfl
  have hfront : ∀ line ∈ (frontLines "").drop 2, ¬constantMark <:+: line.toList := by
    decide +kernel
  have hback : ∀ line ∈ backLines, ¬constantMark <:+: line.toList := by
    decide +kernel
  have hnone : textConstants [] = [] := by
    rw [textConstants.eq_def]
    rfl
  have hend : textConstants (joinLines backLines).toList = [] := by
    rw [← List.append_nil (joinLines backLines).toList, textConstants_lines hback, hnone]
  have hinside := insideNamespace_classFile namespaceName languageVersion "Vsix.g.cs"
    "Defines constants from the <c>source.extension.vsixmanifest</c> file." "Vsix"
    (((manifestConstants m).map manifestSteps).intersperse [.blank]).flatten
  rw [File.textConstants?]
  refine (congrArg (Option.map _) hinside).trans ?_
  rw [Option.map_some, hlines, joinLines_append, joinLines_append, textConstants_lines hfront,
    textConstants_membersLines fun c hc => mark_of_mem_manifestConstants hc, hend,
    List.append_nil]

/-- A literal is read up to its own closing quote whatever comes behind it, its backslashes take
    backslashes and quotes and nothing else, and its parts stand for the value; and the constants of
    a manifest are read back from its file, whatever their values are. -/
theorem literals_read_back :
    (∀ (value : String) (rest : List Char), ∃ parts,
      readLiteral? ('"' :: ((literal value).toList ++ '"' :: rest)) = some (parts, rest) ∧
        parts.flatMap LiteralPart.chars = (literal value).toList ∧
        (∀ c, .escaped c ∈ parts → c = '\\' ∨ c = '"') ∧
        (∀ c, .plain c ∈ parts → c ≠ '\\' ∧ c ≠ '"') ∧
        String.ofList (parts.map LiteralPart.value) = value) ∧
      (∀ value : String, (literal value).toList =
        replaced '"' ['\\', '"'] (replaced '\\' ['\\', '\\'] value.toList)) ∧
      Function.Injective literal ∧
      ∀ (namespaceName languageVersion : String) (m : Manifest),
        (manifestFile namespaceName languageVersion m).textConstants? =
          some [("Author", m.author), ("Description", m.description), ("Id", m.id),
            ("Language", m.language), ("Name", m.name), ("Version", m.version)] := by
  refine ⟨fun value rest => ?_, fun value => ?_, literal_injective, textConstants_manifestFile⟩
  · refine ⟨value.toList.map LiteralPart.ofChar, ?_, ?_, ?_, ?_, ?_⟩
    · rw [readLiteral?, literal, String.toList_ofList, scanLiteral_append]
    · rw [List.flatMap_map, literal, String.toList_ofList, literalChars]
      exact List.flatMap_congr fun c _ => chars_ofChar c
    · intro c hc
      rcases List.mem_map.mp hc with ⟨d, _, hd⟩
      rw [LiteralPart.ofChar] at hd
      split at hd
      · next hescaped =>
          cases hd
          exact hescaped
      · cases hd
    · intro c hc
      rcases List.mem_map.mp hc with ⟨d, _, hd⟩
      rw [LiteralPart.ofChar] at hd
      split at hd
      · cases hd
      · next hplain =>
          cases hd
          exact not_or.mp hplain
    · rw [map_value_ofChar, String.ofList_toList]
  · rw [literal, String.toList_ofList, literalChars_eq_replaced]

end Constants

end Source

end PackageSymbols

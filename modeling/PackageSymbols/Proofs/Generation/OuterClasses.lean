import PackageSymbols.Proofs.Generation.Candidates
import PackageSymbols.Proofs.Source.Lossless

/-!
# Outer Classes Do Not Meet

A namespace cannot have two classes of one name, and only the names of files are
looked at when a run sorts out clashes. Here the class around all members of a
file is read back from its text, and two files of one namespace never have the
same one.

The name of a class determines the name of its file, and this carries over from
the names that were kept apart. It takes a case for each pair of files. Two
classes of the nested layout in one namespace are in one scope, where classes of
one name are the same class. A class that has a fixed name holds no underscore,
so a table whose class has this name is called so itself, and its file has the
fixed name as well.

## Main definitions

* `behindEmptyLine`: The text behind the preamble of a file.
* `File.outerClass?`: The class around all members of a file.

## Theorems

* `insideNamespace_classFile`: What is inside the namespace of a file is found.
* `outerClass?_classFile`: The outer class of a file is read back.
* `outerClass?_of_mem_candidatesOf`: What the candidates declare.
* `name_eq_of_outerClass?_eq`: Files of one namespace with one class share their
  names.
* `outerClasses_distinct`: The files of a run declare different classes.
-/

namespace PackageSymbols

open Identifier Markup Source

namespace Source

/-- The text behind the first empty line. -/
def behindEmptyLine : List Char → List Char
  | [] => []
  | '\n' :: '\n' :: cs => cs
  | _ :: cs => behindEmptyLine cs

/-- The class that a line opens, if it opens one. -/
def openedClass? (line : List Char) : Option String :=
  (dropStart? "internal sealed partial class ".toList (unindented line)).map String.ofList

/-- The class around all members of a file: the first that is opened inside the namespace. -/
def File.outerClass? (file : File) : Option String :=
  (dropStart? ("namespace " ++ file.namespaceName ++ "\n\x7b\n").toList
    (behindEmptyLine file.content.toList)).bind fun inside =>
      (codeLines inside).findSome? openedClass?

section Reading

theorem joinLines_append (lines more : List String) :
    (joinLines (lines ++ more)).toList = (joinLines lines).toList ++ (joinLines more).toList := by
  induction lines with
  | nil => rfl
  | cons line lines ih =>
      rw [List.cons_append, toList_joinLines_cons, toList_joinLines_cons, ih, List.append_assoc,
        List.cons_append]

/-- The preamble of a file ends at its first empty line. -/
theorem behindEmptyLine_preamble (languageVersion : String) (rest : List Char) :
    behindEmptyLine ((joinLines (linesAt 0 (preamble languageVersion))).toList ++ rest) = rest := by
  rw [preamble]
  by_cases hnullable : knowsNullable languageVersion = true
  · rw [if_pos hnullable]
    rfl
  · rw [if_neg hnullable]
    rfl

theorem openedClass?_remarkLine (depth : Nat) (text : String) :
    openedClass? (indented depth (remarkLine text)).toList = none := by
  rw [openedClass?, unindented_indented (isFlush_remarkLine text), toList_remarkLine]
  rfl

theorem openedClass?_header (depth : Nat) (name : String) :
    openedClass? (indented depth ("internal sealed partial class " ++ name)).toList =
      some name := by
  have hflush : IsFlush ("internal sealed partial class " ++ name) :=
    ⟨'i', _, by rw [String.toList_append]; rfl, by decide⟩
  rw [openedClass?, unindented_indented hflush, String.toList_append, dropStart?_append,
    Option.map_some, String.ofList_toList]

/-- What is inside the namespace of a file is found, whatever the namespace is. -/
theorem insideNamespace_classFile (namespaceName languageVersion name documentation
    className : String) (members : List Step) :
    dropStart? ("namespace " ++ namespaceName ++ "\n\x7b\n").toList (behindEmptyLine
      (classFile namespaceName languageVersion name documentation className
        members).content.toList) =
      some (joinLines (linesAt 1 (classSteps documentation className members ++
        [.closing]))).toList := by
  -- Two lines open the namespace.
  have hlines : linesAt 0 (namespaceSteps namespaceName
      (classSteps documentation className members)) =
      indented 0 ("namespace " ++ namespaceName) :: indented 0 "\x7b" ::
        linesAt 1 (classSteps documentation className members ++ [.closing]) := rfl
  have hopening : ∀ inside : List Char,
      (indented 0 ("namespace " ++ namespaceName)).toList ++
        '\n' :: ((indented 0 "\x7b").toList ++ '\n' :: inside) =
      ("namespace " ++ namespaceName ++ "\n\x7b\n").toList ++ inside := by
    intro inside
    simp only [toList_indented, String.toList_append, List.append_assoc]
    rfl
  rw [classFile, render, linesAt_preamble, joinLines_append, behindEmptyLine_preamble, hlines,
    toList_joinLines_cons, toList_joinLines_cons, hopening, dropStart?_append]

/-- The outer class of a file is read back, whatever its namespace and its members are. -/
theorem outerClass?_classFile {documentation className : String}
    (hdocumentation : IsOneLine documentation) (hname : IsOneLine className)
    (namespaceName languageVersion name : String) (members : List Step) :
    (classFile namespaceName languageVersion name documentation className members).outerClass? =
      some className := by
  have hheader : IsOneLine ("internal sealed partial class " ++ className) :=
    isOneLine_append (by decide) hname
  have hremark : IsOneLine (remarkLine documentation) :=
    isOneLine_append (isOneLine_append (by decide) hdocumentation) (by decide)
  -- Inside the namespace the documentation and the header of the class come first.
  have hlines : linesAt 1 (classSteps documentation className members ++ [.closing]) =
      indented 1 (remarkLine documentation) ::
        indented 1 ("internal sealed partial class " ++ className) ::
        indented 1 "\x7b" :: linesAt 2 ((members ++ [.closing]) ++ [.closing]) := rfl
  have hinside := insideNamespace_classFile namespaceName languageVersion name documentation
    className members
  rw [File.outerClass?]
  refine (congrArg (Option.bind · _) hinside).trans ?_
  rw [Option.bind_some, hlines, codeLines_joinLines_cons (isOneLine_indented hremark 1),
    codeLines_joinLines_cons (isOneLine_indented hheader 1), List.findSome?_cons,
    openedClass?_remarkLine, List.findSome?_cons, openedClass?_header]

end Reading

end Source

section Run

variable (build : BuildSettings) (documents : List Document)

/-- What the candidates declare, and which of them they are. -/
theorem outerClass?_of_mem_candidatesOf {draft : Draft}
    (h : draft ∈ candidatesOf build documents) :
    (∃ c ∈ classesIn build documents draft.file.namespaceName,
      draft.file = nestedFile draft.file.namespaceName build.languageVersionOrDefault c ∧
      draft.file.outerClass? = some c.name) ∨
    (∃ name ∈ ["PackageGuids", "PackageIds", "Vsix"],
      draft.file.name = name ++ ".g.cs" ∧ draft.file.outerClass? = some name) := by
  rcases candidatesOf_cases build documents h with ⟨c, hc, hfile⟩ | ⟨fixed, hfixed, members, hfile⟩
  · refine Or.inl ⟨c, hc, hfile, ?_⟩
    -- The name of the class is an identifier, so it is one line.
    have hname : IsOneLine c.name := by
      rw [← ofName_tableName hc]
      exact isOneLine_of_isName (isName_ofName c.tableName)
    rw [hfile]
    exact outerClass?_classFile (isOneLine_quoted _ _ _ (by decide) (by decide)) hname _ _ _ _
  · have hlines : ∀ fixed ∈ fixedClasses, IsOneLine fixed.2 ∧ IsOneLine fixed.1 := by decide
    refine Or.inr ⟨fixed.1, List.mem_map_of_mem hfixed, ?_, ?_⟩
    · rw [hfile, classFile]
    · rw [hfile]
      exact outerClass?_classFile (hlines fixed hfixed).1 (hlines fixed hfixed).2 _ _ _ _

/-- A class of the nested layout with a fixed name has the fixed file name. -/
theorem nestedFileName_of_fixed {tables : List LocatedTable} {c : TableClass}
    (hc : c ∈ (TableClass.ofTables tables).1) {name : String}
    (hname : name ∈ ["PackageGuids", "PackageIds", "Vsix"]) (h : c.name = name) :
    nestedFileName c.tableName = name ++ ".g.cs" := by
  have hnone : ∀ name ∈ ["PackageGuids", "PackageIds", "Vsix"], '_' ∉ name.toList := by decide
  have hsame : ∀ name ∈ ["PackageGuids", "PackageIds", "Vsix"],
      nestedFileName name = name ++ ".g.cs" := by decide +kernel
  -- No underscore in the name of the class: its table is called so itself.
  have htable : c.tableName = name :=
    eq_of_ofName_eq (hnone name hname) ((ofName_tableName hc).trans h)
  rw [htable, hsame name hname]

/-- Candidates of one namespace that declare one class have the same file name. -/
theorem name_eq_of_outerClass?_eq {a b : Draft} (ha : a ∈ candidatesOf build documents)
    (hb : b ∈ candidatesOf build documents) (hspace : a.file.namespaceName = b.file.namespaceName)
    (hclass : a.file.outerClass? = b.file.outerClass?) : a.file.name = b.file.name := by
  rcases outerClass?_of_mem_candidatesOf build documents ha with
    ⟨c, hc, hfile, hname⟩ | ⟨name, hfixed, hfile, hname⟩
  · rcases outerClass?_of_mem_candidatesOf build documents hb with
      ⟨e, he, hfile', hname'⟩ | ⟨name', hfixed', hfile', hname'⟩
    -- Two classes of one scope.
    · rw [hname, hname', Option.some.injEq] at hclass
      rw [← hspace] at he
      rw [hfile, hfile', eq_of_className_eq hc he hclass]
      rfl
    · rw [hname, hname', Option.some.injEq] at hclass
      rw [hfile, hfile']
      exact nestedFileName_of_fixed hc hfixed' hclass
  · rcases outerClass?_of_mem_candidatesOf build documents hb with
      ⟨e, he, hfile', hname'⟩ | ⟨name', hfixed', hfile', hname'⟩
    · rw [hname, hname', Option.some.injEq] at hclass
      rw [hfile, hfile']
      exact (nestedFileName_of_fixed he hfixed hclass.symm).symm
    · rw [hname, hname', Option.some.injEq] at hclass
      rw [hfile, hfile', hclass]

/-- Every file of a run declares the class that it was made for, and no two files of one namespace
    declare the same. -/
theorem outerClasses_distinct :
    (∀ file ∈ (Generation.ofDocuments build documents).files,
      (∃ c ∈ classesIn build documents file.namespaceName,
        file = nestedFile file.namespaceName build.languageVersionOrDefault c ∧
        file.outerClass? = some c.name) ∨
      (∃ name ∈ ["PackageGuids", "PackageIds", "Vsix"],
        file.name = name ++ ".g.cs" ∧ file.outerClass? = some name)) ∧
    (Generation.ofDocuments build documents).files.Pairwise fun a b =>
      a.namespaceName = b.namespaceName → a.outerClass? ≠ b.outerClass? := by
  refine ⟨?_, ?_⟩
  · intro file hfile
    rcases mem_candidatesOf_of_mem_files build documents hfile with ⟨draft, hdraft, rfl⟩
    exact outerClass?_of_mem_candidatesOf build documents hdraft
  · have hunique := nodup_titles_ofDocuments build documents
    refine (List.pairwise_map.mp hunique).imp_of_mem ?_
    intro a b ha hb htitle hspace hclass
    rcases mem_candidatesOf_of_mem_files build documents ha with ⟨draft, hdraft, rfl⟩
    rcases mem_candidatesOf_of_mem_files build documents hb with ⟨other, hother, rfl⟩
    exact htitle (Prod.ext hspace
      (name_eq_of_outerClass?_eq build documents hdraft hother hspace hclass))

end Run

end PackageSymbols

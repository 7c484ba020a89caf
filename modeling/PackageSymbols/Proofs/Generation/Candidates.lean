import PackageSymbols.Proofs.Generation.Failures
import PackageSymbols.Proofs.Identifier

/-!
# The First File of a Name Keeps It

The files that a run could make are told here from the documents alone: those of
each scope, the scopes in the order in which their targets first came up among
the tables that were read, and then one for each manifest that was read. The
scope of a target holds the tables that were read for it, in the order of their
documents.

Of these candidates the first of each title becomes a file, and for every other
there is a warning at the end of the reports. So no file goes missing without a
word, and each file of a run is found by its title.

## Main definitions

* `targetsOf`, `tablesFor`: The targets of a run, and the tables of each.
* `manifestsOf`: The manifests that are read, with their documents.
* `candidatesOf`: The files that a run could make.
* `classesIn`, `fixedClasses`: The classes that they hold.
* `FirstComeFirstServed`: What must become of candidates.

## Theorems

* `manifestDraftsOf_eq`: Each manifest that is read has one candidate.
* `draftsOf_eq_candidatesOf`: A run makes its files out of the candidates.
* `candidatesOf_cases`: What a candidate can be.
* `isAllowed_of_mem_candidatesOf`: Candidates have names that files may have.
* `firstComeFirstServed_ofDocuments`: The first candidate of a title keeps it.
-/

namespace PackageSymbols

open Source

section Candidates

variable (build : BuildSettings) (documents : List Document)

/-- The targets of the tables that were read, each once, in the order in which they come up. -/
def targetsOf : List (Target Layout) :=
  ((tablesOf build documents).map Prod.fst).eraseDups

/-- The tables that were read for a target, in the order of their documents. -/
def tablesFor (target : Target Layout) : List LocatedTable :=
  ((tablesOf build documents).filter fun item => item.1 == target).map Prod.snd

/-- The tables for a target are those that are read from its documents. -/
theorem mem_tablesFor {target : Target Layout} {t : LocatedTable} :
    t ∈ tablesFor build documents target ↔
      ∃ d ∈ documents, (d.read build).table? = some (target, t) := by
  have hmembers : tablesFor build documents target =
      Grouping.membersIn (tablesOf build documents) target := rfl
  rw [hmembers, Grouping.mem_membersIn, tablesOf, filterMap_read, List.mem_filterMap]

/-- The files of the manifests that were read, in the order of their documents. -/
def manifestDraftsOf : List Draft :=
  documents.filterMap fun d => (d.read build).manifestDraft? build.languageVersionOrDefault

/-- The manifests that are read, each with its document and the namespace that it generates into,
    in the order of the documents. -/
def manifestsOf : List (Document × String × Manifest) :=
  documents.filterMap fun d =>
    match d.kind?, namespaceFor? build d.settings, Manifest.parse d.contents with
    | some .manifest, some n, .ok values => some (d, n, values)
    | _, _, _ => none

/-- Each manifest that is read has one candidate, and no other document has one. -/
theorem manifestDraftsOf_eq :
    manifestDraftsOf build documents = (manifestsOf build documents).map fun item =>
      { file := manifestFile item.2.1 build.languageVersionOrDefault item.2.2
        origin := Location.ofPath item.1.path } := by
  rw [manifestDraftsOf, manifestsOf, List.map_filterMap]
  refine List.filterMap_congr fun d _ => ?_
  -- A document is read by what it is, and only if there is a namespace for it.
  rw [Document.read]
  cases d.kind? with
  | none => rfl
  | some kind =>
      cases namespaceFor? build d.settings with
      | none => cases kind <;> rfl
      | some n =>
          cases kind with
          | commandTable =>
              simp only [Document.readTable]
              cases CommandTable.parse (Path.stem d.path) d.contents with
              | error error => rfl
              | ok table => rfl
          | manifest =>
              simp only [Document.readManifest]
              cases Manifest.parse d.contents with
              | error error => rfl
              | ok values => rfl

/-- The files of manifests all have one name. -/
theorem name_of_mem_manifestDraftsOf {draft : Draft}
    (h : draft ∈ manifestDraftsOf build documents) : draft.file.name = "Vsix.g.cs" := by
  rcases List.mem_filterMap.mp h with ⟨d, _, hread⟩
  rcases eq_of_manifestDraft? hread with ⟨n, path, values, _, rfl⟩
  rfl

/-- The files that a run could make: those of its scopes, and then those of its manifests. -/
def candidatesOf : List Draft :=
  ((targetsOf build documents).flatMap fun target =>
    (draftsOfScope build.languageVersionOrDefault target
      (tablesFor build documents target)).1) ++
  manifestDraftsOf build documents

/-- The scopes of a run: its targets with the tables of each. -/
theorem entries_scopesOf :
    (scopesOf (documents.map (Document.read build))).entries =
      (targetsOf build documents).map fun target => (target, tablesFor build documents target) :=
  Grouping.entries_ofList (tablesOf build documents)

/-- A run makes its files out of the candidates. -/
theorem draftsOf_eq_candidatesOf :
    (draftsOf build.languageVersionOrDefault (documents.map (Document.read build))).1 =
      candidatesOf build documents := by
  rw [draftsOf, entries_scopesOf, candidatesOf, manifestDraftsOf, List.map_map, List.flatMap_map,
    filterMap_read]
  rfl

theorem ofDocuments_eq_of_candidatesOf :
    Generation.ofDocuments build documents =
      { files := (firstOfTitle (candidatesOf build documents)).map (·.file)
        diagnostics := failuresOf build documents ++ symbolClashesOf build documents ++
          (laterOfTitle (candidatesOf build documents)).map Draft.clash } := by
  rw [ofDocuments_eq, fileClashesOf, draftsOf_eq_candidatesOf, keptDrafts_eq, droppedDrafts_eq]

/-- The classes of the nested layout in a namespace. -/
def classesIn (namespaceName : String) : List TableClass :=
  (TableClass.ofTables (tablesFor build documents ⟨namespaceName, .nested⟩)).1

/-- The classes that have one name in every namespace, with their documentation. -/
def fixedClasses : List (String × String) :=
  [("PackageGuids", "Defines GUIDs from VSCT files."),
   ("PackageIds", "Defines IDs from VSCT files."),
   ("Vsix", "Defines constants from the <c>source.extension.vsixmanifest</c> file.")]

/-- What the file of a candidate can be: that of a class of its namespace in the nested layout, or
    that of a class with a fixed name. -/
theorem candidatesOf_cases {draft : Draft} (h : draft ∈ candidatesOf build documents) :
    (∃ c ∈ classesIn build documents draft.file.namespaceName, draft.file =
      nestedFile draft.file.namespaceName build.languageVersionOrDefault c) ∨
    (∃ fixed ∈ fixedClasses, ∃ members, draft.file =
      classFile draft.file.namespaceName build.languageVersionOrDefault (fixed.1 ++ ".g.cs")
        fixed.2 fixed.1 members) := by
  rcases List.mem_append.mp h with h | h
  · rcases List.mem_flatMap.mp h with ⟨⟨n, layout⟩, _, hdraft⟩
    rcases List.mem_map.mp hdraft with ⟨file, hfile, rfl⟩
    -- A nested layout makes a file for each class, and a flat one the first two fixed files.
    cases layout with
    | nested =>
        rcases List.mem_map.mp hfile with ⟨c, hc, rfl⟩
        exact Or.inl ⟨c, hc, rfl⟩
    | flat =>
        rcases List.mem_cons.mp hfile with rfl | hfile
        · exact Or.inr ⟨_, List.mem_cons_self, _, rfl⟩
        · rcases List.mem_singleton.mp hfile with rfl
          exact Or.inr ⟨_, List.mem_cons_of_mem _ List.mem_cons_self, _, rfl⟩
  · rcases List.mem_filterMap.mp h with ⟨d, _, hread⟩
    rcases eq_of_manifestDraft? hread with ⟨n, path, values, _, rfl⟩
    exact Or.inr ⟨_, List.mem_cons_of_mem _ (List.mem_cons_of_mem _ List.mem_cons_self), _, rfl⟩

/-- Candidates have names that files may have. -/
theorem isAllowed_of_mem_candidatesOf {draft : Draft} (h : draft ∈ candidatesOf build documents) :
    ∀ c ∈ draft.file.name.toList, FileName.isAllowed c = true := by
  rcases candidatesOf_cases build documents h with ⟨c, _, hfile⟩ | ⟨fixed, hfixed, _, hfile⟩
  · rw [hfile]
    exact fun _ => FileName.isAllowed_of_mem_ofName
  · rw [hfile]
    have hplain : ∀ fixed ∈ fixedClasses,
        (fixed.1 ++ ".g.cs").toList.all (fun c => c.isAlpha || c == '.') = true := by decide
    exact fun c hc => FileName.isAllowed_of_plain (List.all_eq_true.mp (hplain fixed hfixed) c hc)

end Candidates

/-- What must become of candidates: the first of each title becomes a file, and every other is
    reported. -/
structure FirstComeFirstServed (candidates : List Draft) (g : Generation) : Prop where
  /-- The files are those of the first candidates of their titles, in their order. -/
  files : g.files = (firstOfTitle candidates).map (·.file)
  /-- No two files have the same namespace and name. -/
  unique : (g.files.map File.title).Nodup
  /-- Each file is found by its namespace and name. -/
  found : ∀ file ∈ g.files, g.file? file.namespaceName file.name = some file
  /-- The reports end with one for each of the other candidates, in their order, and no report
      before them is about the name of a file. -/
  reports : ∃ earlier clashes, g.diagnostics = earlier ++ clashes ∧
    clashes = (laterOfTitle candidates).map (fun draft =>
      { problem := .takenFileName draft.file.namespaceName draft.file.name
        location := draft.origin }) ∧
    ∀ report ∈ earlier, ∀ n name, report.problem ≠ .takenFileName n name
  /-- A report about the name of a file is a warning under the code of clashes. -/
  warnings : ∀ report ∈ g.diagnostics, ∀ n name, report.problem = .takenFileName n name →
    report.problem.severity = .warning ∧ report.problem.code = "CVSSG004"

section Run

variable (build : BuildSettings) (documents : List Document)

theorem nodup_titles_ofDocuments :
    ((Generation.ofDocuments build documents).files.map File.title).Nodup := by
  rw [ofDocuments_eq_of_candidatesOf, ← keptDrafts_eq, List.map_map]
  exact (nodup_keptDrafts (candidatesOf build documents) []).1

theorem mem_candidatesOf_of_mem_files {file : File}
    (h : file ∈ (Generation.ofDocuments build documents).files) :
    ∃ draft ∈ candidatesOf build documents, draft.file = file := by
  rw [ofDocuments_eq_of_candidatesOf, ← keptDrafts_eq] at h
  rcases List.mem_map.mp h with ⟨draft, hdraft, rfl⟩
  exact ⟨draft, mem_of_mem_keptDrafts hdraft, rfl⟩

/-- Reports about documents and about symbols are not about the name of a file. -/
theorem problem_ne_takenFileName {report : Diagnostic}
    (h : report ∈ failuresOf build documents ++ symbolClashesOf build documents)
    (n name : String) : report.problem ≠ .takenFileName n name := by
  rcases List.mem_append.mp h with h | h
  · rcases failsWith_of_mem_failuresOf build documents h with ⟨_, _, _, hfails⟩
    -- A document that fails is an error, and a taken name is a warning.
    intro hproblem
    have herror := hfails.isError
    have hwarning : ((Problem.takenFileName n name).severity == Severity.error) = false := rfl
    rw [Diagnostic.isError, hproblem, hwarning] at herror
    exact absurd herror Bool.false_ne_true
  · rcases conflictingSymbol_of_mem_symbolClashesOf build documents h with ⟨written, hproblem⟩
    rw [hproblem]
    simp only [ne_eq, reduceCtorEq, not_false_eq_true]

/-- A run serves its candidates in their order. All files have names that files may have. Each
    manifest that is read leads to one candidate, and these are called the same throughout. -/
theorem firstComeFirstServed_ofDocuments :
    FirstComeFirstServed (candidatesOf build documents) (Generation.ofDocuments build documents) ∧
    (∀ file ∈ (Generation.ofDocuments build documents).files, ∀ c ∈ file.name.toList,
      FileName.isAllowed c = true) ∧
    (manifestDraftsOf build documents = (manifestsOf build documents).map fun item =>
      { file := manifestFile item.2.1 build.languageVersionOrDefault item.2.2
        origin := Location.ofPath item.1.path }) ∧
    ∀ draft ∈ manifestDraftsOf build documents, draft.file.name = "Vsix.g.cs" := by
  have hunique := nodup_titles_ofDocuments build documents
  refine ⟨⟨?_, hunique, fun _ => file?_of_nodup hunique, ?_, ?_⟩, ?_,
    manifestDraftsOf_eq build documents, fun _ => name_of_mem_manifestDraftsOf build documents⟩
  · rw [ofDocuments_eq_of_candidatesOf]
  · rw [ofDocuments_eq_of_candidatesOf]
    exact ⟨_, _, rfl, rfl, fun _ => problem_ne_takenFileName build documents⟩
  · intro report _ n name hproblem
    rw [hproblem]
    exact ⟨rfl, rfl⟩
  · intro file hfile
    rcases mem_candidatesOf_of_mem_files build documents hfile with ⟨draft, hdraft, rfl⟩
    exact isAllowed_of_mem_candidatesOf build documents hdraft

end Run

end PackageSymbols

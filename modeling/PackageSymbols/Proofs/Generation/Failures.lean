import Mathlib.Data.List.Forall2
import PackageSymbols.Proofs.Classes.Layouts
import PackageSymbols.Proofs.Generation.Namespaces

/-!
# A Failing Document Costs No Other Its Output

A recognized document fails when it has no namespace or when its contents cannot
be read as what it is. A run over all documents is compared with a run over the
sound ones, which neither fail nor are passed over. Whatever a run makes, it
makes out of the tables and the manifests that were read, and only sound
documents give it any. So scopes, winners, names of classes and names of files
are the same in both runs.

The reports of a run come from three stages, and documents that fail are heard
of in the first stage only. Each is reported once, in the order of the
documents. What the other two stages report is about the sound documents, and
none of it is an error.

## Main definitions

* `Document.isFailing`, `Document.isSound`: Whether a recognized document fails,
  and whether it is read.
* `Document.FailsWith`: What is reported of a document that fails.

## Theorems

* `isFailing_cases`: A document that fails is reported as it should be.
* `isSound_of_table?`, `isSound_of_manifestDraft?`: Only sound documents are
  read.
* `draftsOf_sound`: What a run makes, it makes out of the sound documents.
* `forall₂_failuresOf`: One report for each document that fails.
* `failures_isolated`: A run and the run over the sound documents.
-/

namespace PackageSymbols

namespace Document

/-- Whether a recognized document has no namespace or cannot be read as what it is. -/
def isFailing (build : BuildSettings) (document : Document) : Bool :=
  match document.kind? with
  | none => false
  | some .commandTable =>
      (namespaceFor? build document.settings).isNone ||
        !(CommandTable.parse (Path.stem document.path) document.contents).isOk
  | some .manifest =>
      (namespaceFor? build document.settings).isNone || !(Manifest.parse document.contents).isOk

/-- Whether a document is recognized and does not fail. -/
def isSound (build : BuildSettings) (document : Document) : Bool :=
  document.isRecognized && !document.isFailing build

/-- What is reported of a document that fails. -/
inductive FailsWith (build : BuildSettings) (document : Document) (report : Diagnostic) : Prop where
  /-- It has no namespace, whatever its contents are. -/
  | homeless (hrecognized : document.isRecognized = true)
      (hspace : namespaceFor? build document.settings = none)
      (hproblem : report.problem = .missingNamespace (Path.fileName document.path))
      (hcode : report.problem.code = "CVSSG001")
      (hlocation : report.location = { path := some document.path, position := none })
  /-- It is a manifest that cannot be read; the error may have a position. -/
  | manifest (hspace : namespaceFor? build document.settings ≠ none)
      (hkind : document.kind? = some .manifest) (error : Manifest.Error)
      (hparse : Manifest.parse document.contents = .error error)
      (hproblem : report.problem = .unreadableManifest error.message)
      (hcode : report.problem.code = "CVSSG002")
      (hlocation : report.location = { path := some document.path, position := error.position? })
  /-- It is a command table that cannot be read. -/
  | table (hspace : namespaceFor? build document.settings ≠ none)
      (hkind : document.kind? = some .commandTable) (error : CommandTable.Error)
      (hparse : CommandTable.parse (Path.stem document.path) document.contents = .error error)
      (hproblem : report.problem = .unreadableTable document.path error.message)
      (hcode : report.problem.code = "CVSSG003")
      (hlocation : report.location =
        { path := some document.path, position := some error.position })

theorem FailsWith.isError {build : BuildSettings} {document : Document} {report : Diagnostic}
    (h : document.FailsWith build report) : report.isError = true := by
  rw [Diagnostic.isError]
  cases h with
  | homeless _ _ hproblem => rw [hproblem]; rfl
  | manifest _ _ _ _ hproblem => rw [hproblem]; rfl
  | table _ _ _ _ hproblem => rw [hproblem]; rfl

end Document

section Reading

variable {build : BuildSettings} {d : Document}

/-- A document fails and is reported as it should be, or does not and is not reported. -/
theorem isFailing_cases (build : BuildSettings) (d : Document) :
    (d.isFailing build = true ∧
      ∃ report, d.read build = .failed report ∧ d.FailsWith build report) ∨
    (d.isFailing build = false ∧ (d.read build).diagnostic? = none) := by
  have hreads := d.reads_read build
  rw [Document.isFailing]
  generalize d.read build = outcome at hreads
  cases hreads with
  | skipped hkind =>
      rw [hkind]
      exact Or.inr ⟨rfl, rfl⟩
  -- Without a namespace the contents do not count, whatever the document is.
  | homeless kind hkind hspace =>
      have hrecognized := Document.isRecognized_of_kind? hkind
      rw [hkind, hspace]
      refine Or.inl ⟨?_, _, rfl, .homeless hrecognized hspace rfl rfl rfl⟩
      cases kind <;> rfl
  | table n hkind hspace table hparse =>
      rw [hkind, hspace, hparse]
      exact Or.inr ⟨rfl, rfl⟩
  | unreadableTable n hkind hspace error hparse =>
      have hsome := hspace.trans_ne (Option.some_ne_none n)
      rw [hkind, hspace, hparse]
      exact Or.inl ⟨rfl, _, rfl, .table hsome hkind error hparse rfl rfl rfl⟩
  | manifest n hkind hspace values hparse =>
      rw [hkind, hspace, hparse]
      exact Or.inr ⟨rfl, rfl⟩
  | unreadableManifest n hkind hspace error hparse =>
      have hsome := hspace.trans_ne (Option.some_ne_none n)
      rw [hkind, hspace, hparse]
      exact Or.inl ⟨rfl, _, rfl, .manifest hsome hkind error hparse rfl rfl rfl⟩

theorem diagnostic?_of_isFailing (h : d.isFailing build = true) :
    ∃ report, (d.read build).diagnostic? = some report ∧ d.FailsWith build report := by
  rcases isFailing_cases build d with ⟨_, report, hread, hreport⟩ | ⟨hno, _⟩
  · rw [hread]
    exact ⟨report, rfl, hreport⟩
  · exact absurd (h.symm.trans hno) (Ne.symm Bool.false_ne_true)

theorem diagnostic?_of_not_isFailing (h : d.isFailing build = false) :
    (d.read build).diagnostic? = none := by
  rcases isFailing_cases build d with ⟨hyes, _⟩ | ⟨_, hnone⟩
  · exact absurd (h.symm.trans hyes) Bool.false_ne_true
  · exact hnone

/-- A recognized document is sound unless it failed. -/
theorem isSound_of_read (hrecognized : d.isRecognized = true)
    (h : ∀ report, d.read build ≠ .failed report) : d.isSound build = true := by
  rw [Document.isSound, hrecognized, Bool.true_and, Bool.not_eq_true']
  rcases isFailing_cases build d with ⟨_, report, hread, _⟩ | ⟨hno, _⟩
  · exact absurd hread (h report)
  · exact hno

theorem isSound_of_table? {item : Target Source.Layout × LocatedTable}
    (h : (d.read build).table? = some item) : d.isSound build = true := by
  refine isSound_of_read (namespace_of_table? h).1 ?_
  intro report hread
  rw [hread] at h
  exact absurd h (by simp only [Outcome.table?, reduceCtorEq, not_false_eq_true])

theorem isSound_of_manifestDraft? {version : String} {draft : Draft}
    (h : (d.read build).manifestDraft? version = some draft) : d.isSound build = true := by
  refine isSound_of_read (namespace_of_manifestDraft? h).1 ?_
  intro report hread
  rw [hread] at h
  exact absurd h (by simp only [Outcome.manifestDraft?, reduceCtorEq, not_false_eq_true])

end Reading

section Run

variable (build : BuildSettings) (documents : List Document)

/-- The documents that fail. -/
def failingOf : List Document :=
  documents.filter (Document.isFailing build)

/-- The documents that are read: what is left without those that fail and those that are not
    recognized. -/
def soundOf : List Document :=
  documents.filter (Document.isSound build)

/-- What only sound documents lead to is the same without the others. -/
theorem filterMap_soundOf {β : Type} {f : Document → Option β}
    (h : ∀ d b, f d = some b → d.isSound build = true) :
    (soundOf build documents).filterMap f = documents.filterMap f := by
  rw [soundOf, filterMap_filter_of_agree f _ (fun _ => true) fun d _ b hb => h d b hb]
  exact List.filter_eq_self.mpr fun _ _ => rfl

theorem scopesOf_sound :
    scopesOf ((soundOf build documents).map (Document.read build)) =
      scopesOf (documents.map (Document.read build)) := by
  rw [scopesOf, scopesOf, filterMap_read, filterMap_read]
  exact congrArg _ (filterMap_soundOf build documents fun _ _ => isSound_of_table?)

/-- What a run makes, it makes out of the sound documents. -/
theorem draftsOf_sound (version : String) :
    draftsOf version ((soundOf build documents).map (Document.read build)) =
      draftsOf version (documents.map (Document.read build)) := by
  have hmanifests : ((soundOf build documents).map (Document.read build)).filterMap
      (Outcome.manifestDraft? version) =
      (documents.map (Document.read build)).filterMap (Outcome.manifestDraft? version) := by
    rw [filterMap_read, filterMap_read]
    exact filterMap_soundOf build documents fun _ _ => isSound_of_manifestDraft?
  simp only [draftsOf, scopesOf_sound, hmanifests]

theorem symbolClashesOf_sound :
    symbolClashesOf build (soundOf build documents) = symbolClashesOf build documents := by
  rw [symbolClashesOf, symbolClashesOf, scopesOf_sound]

theorem fileClashesOf_sound :
    fileClashesOf build (soundOf build documents) = fileClashesOf build documents := by
  rw [fileClashesOf, fileClashesOf, draftsOf_sound]

/-- There is one report for each document that fails, in the order of the documents. -/
theorem forall₂_failuresOf :
    List.Forall₂ (Document.FailsWith build) (failingOf build documents)
      (failuresOf build documents) := by
  induction documents with
  | nil => exact List.Forall₂.nil
  | cons d documents ih =>
      rw [failingOf, List.filter_cons, failuresOf, List.filterMap_cons]
      cases hfailing : d.isFailing build with
      | true =>
          rcases diagnostic?_of_isFailing hfailing with ⟨report, hreport, hfails⟩
          rw [if_pos rfl, hreport]
          exact List.Forall₂.cons hfails ih
      | false =>
          rw [if_neg Bool.false_ne_true, diagnostic?_of_not_isFailing hfailing]
          exact ih

theorem failsWith_of_mem_failuresOf {report : Diagnostic}
    (h : report ∈ failuresOf build documents) :
    ∃ d ∈ documents, d.isFailing build = true ∧ d.FailsWith build report := by
  rcases List.mem_filterMap.mp h with ⟨d, hd, hreport⟩
  rcases isFailing_cases build d with ⟨hfailing, failure, hread, hfails⟩ | ⟨_, hnone⟩
  · rw [hread, Outcome.diagnostic?, Option.some.injEq] at hreport
    exact ⟨d, hd, hfailing, hreport ▸ hfails⟩
  · rw [hnone] at hreport
    exact absurd hreport (by simp only [reduceCtorEq, not_false_eq_true])

theorem failuresOf_sound : failuresOf build (soundOf build documents) = [] := by
  refine List.filterMap_eq_nil_iff.mpr ?_
  intro d hd
  have hsound := (List.mem_filter.mp hd).2
  rw [Document.isSound, Bool.and_eq_true, Bool.not_eq_true'] at hsound
  exact diagnostic?_of_not_isFailing hsound.2

theorem conflictingSymbol_of_mem_symbolClashesOf {report : Diagnostic}
    (h : report ∈ symbolClashesOf build documents) :
    ∃ written, report.problem = .conflictingSymbol written := by
  rcases List.mem_flatMap.mp h with ⟨⟨⟨n, layout⟩, tables⟩, _, hreport⟩
  cases layout with
  | nested => exact conflictingSymbol_of_mem_nested hreport
  | flat => exact conflictingSymbol_of_mem_flat hreport

/-- What is reported of sound documents is that something was declared twice. -/
theorem warning_of_mem_sound {report : Diagnostic}
    (h : report ∈ (Generation.ofDocuments build (soundOf build documents)).diagnostics) :
    report.problem.severity = .warning ∧ report.problem.code = "CVSSG004" := by
  rw [ofDocuments_eq, failuresOf_sound, List.nil_append] at h
  rcases List.mem_append.mp h with h | h
  · rcases conflictingSymbol_of_mem_symbolClashesOf build _ h with ⟨written, hproblem⟩
    rw [hproblem]
    exact ⟨rfl, rfl⟩
  · rcases List.mem_map.mp h with ⟨draft, _, rfl⟩
    exact ⟨rfl, rfl⟩

theorem diagnostics_ofDocuments :
    (Generation.ofDocuments build documents).diagnostics =
      failuresOf build documents ++
        (Generation.ofDocuments build (soundOf build documents)).diagnostics := by
  simp only [ofDocuments_eq, failuresOf_sound, symbolClashesOf_sound, fileClashesOf_sound,
    List.nil_append, List.append_assoc]

/-- There is an error exactly if a document fails. -/
theorem hasErrors_ofDocuments :
    (Generation.ofDocuments build documents).hasErrors = true ↔
      ∃ d ∈ documents, d.isFailing build = true := by
  rw [Generation.hasErrors, Diagnostics.hasErrors, diagnostics_ofDocuments, List.any_append,
    Bool.or_eq_true]
  have hwarnings : ¬ (Generation.ofDocuments build (soundOf build documents)).diagnostics.any
      Diagnostic.isError = true := by
    intro h
    rcases List.any_eq_true.mp h with ⟨report, hreport, herror⟩
    rw [Diagnostic.isError, (warning_of_mem_sound build documents hreport).1] at herror
    exact absurd herror (by decide)
  constructor
  · intro h
    rcases List.any_eq_true.mp (h.resolve_right hwarnings) with ⟨report, hreport, _⟩
    rcases failsWith_of_mem_failuresOf build documents hreport with ⟨d, hd, hfailing, _⟩
    exact ⟨d, hd, hfailing⟩
  · rintro ⟨d, hd, hfailing⟩
    rcases diagnostic?_of_isFailing hfailing with ⟨report, hreport, hfails⟩
    exact Or.inl (List.any_eq_true.mpr
      ⟨report, List.mem_filterMap.mpr ⟨d, hd, hreport⟩, hfails.isError⟩)

/-- A run makes the files that the sound documents alone would make. It reports one error for each
    document that fails, in their order, and then what it would report of the others. -/
theorem failures_isolated :
    (Generation.ofDocuments build documents).files =
      (Generation.ofDocuments build (soundOf build documents)).files ∧
    (∃ errors, List.Forall₂ (Document.FailsWith build) (failingOf build documents) errors ∧
      (∀ report ∈ errors, report.isError = true) ∧
      (Generation.ofDocuments build documents).diagnostics =
        errors ++ (Generation.ofDocuments build (soundOf build documents)).diagnostics) ∧
    (∀ report ∈ (Generation.ofDocuments build (soundOf build documents)).diagnostics,
      report.problem.severity = .warning ∧ report.problem.code = "CVSSG004") ∧
    ((Generation.ofDocuments build documents).hasErrors = true ↔
      ∃ d ∈ documents, d.isFailing build = true) := by
  refine ⟨?_, ⟨failuresOf build documents, forall₂_failuresOf build documents, ?_,
    diagnostics_ofDocuments build documents⟩, fun _ => warning_of_mem_sound build documents,
    hasErrors_ofDocuments build documents⟩
  · rw [ofDocuments_eq, ofDocuments_eq, draftsOf_sound]
  · intro report hreport
    rcases failsWith_of_mem_failuresOf build documents hreport with ⟨_, _, _, hfails⟩
    exact hfails.isError

end Run

end PackageSymbols

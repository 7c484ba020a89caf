import PackageSymbols.Proofs.Classes.Order
import PackageSymbols.Proofs.Generation.Candidates

/-!
# The Order of Documents

The order in which documents are handed over shows in a run in many places: which
declaration of a name comes first, which table describes a class, in which order
scopes come up, which file keeps a name. All of them are about conflicts, but for
the order in which files are told. So a run that reports nothing makes the same
files when its documents come in another order, and again reports nothing.

The one exception makes no report: tables whose names differ may lead to one
class, which is then described by, and its file named after, the first of them.
It is excluded by asking that command tables which share a class have one stem.

The argument goes stage by stage. Reading is done for each document alone. The
tables of a target are the same in another order, and without conflicts the files
of a scope do not depend on it. So the candidates are the same up to their order,
and if no two of them share a title then all of them are files of the run.

## Main definitions

* `OneStemPerClass`: Command tables that share a class have one stem.

## Theorems

* `Layout.files_eq_of_mem_iff`: Without conflicts, the same tables lead to the
  same files.
* `silent_iff`: When a run reports nothing.
* `ofDocuments_perm`: The order of documents does not matter without conflicts.
-/

namespace PackageSymbols

open Identifier Source

/-- Whether command tables that generate into one namespace in the nested layout and whose stems
    lead to one identifier have one stem. -/
def OneStemPerClass (build : BuildSettings) (documents : List Document) : Prop :=
  ∀ d ∈ documents, ∀ e ∈ documents,
    d.kind? = some .commandTable → e.kind? = some .commandTable →
    d.settings.chosenFormat.layout = .nested → e.settings.chosenFormat.layout = .nested →
    namespaceFor? build d.settings = namespaceFor? build e.settings →
    ofName (Path.stem d.path) = ofName (Path.stem e.path) → Path.stem d.path = Path.stem e.path

instance (build : BuildSettings) (documents : List Document) :
    Decidable (OneStemPerClass build documents) :=
  inferInstanceAs (Decidable (∀ d ∈ documents, ∀ e ∈ documents, _))

/-- Without conflicts, the same tables lead to the same files and to no report. -/
theorem Source.Layout.files_eq_of_mem_iff {layout : Layout} {n version : String}
    {tables others : List LocatedTable} (hsame : ∀ t, t ∈ tables ↔ t ∈ others)
    (hsilent : (layout.files n version tables).2 = [])
    (hnames : layout = .nested → NamedAlike tables) :
    layout.files n version others = layout.files n version tables := by
  cases layout with
  | nested => rw [Layout.files, Layout.files, ofTables_eq_of_mem_iff hsame hsilent (hnames rfl)]
  | flat => rw [Layout.files, Layout.files, flat_eq_of_mem_iff hsame hsilent]

section Stages

variable (build : BuildSettings) (documents : List Document)

/-- The files of a scope of a run with the reports about its symbols. -/
def scopeFiles (target : Target Layout) : List File × Diagnostics :=
  target.layout.files target.namespaceName build.languageVersionOrDefault
    (tablesFor build documents target)

/-- The candidates without the places they are reported at. -/
theorem files_candidatesOf :
    (candidatesOf build documents).map (·.file) =
      ((targetsOf build documents).flatMap fun target => (scopeFiles build documents target).1) ++
        (manifestDraftsOf build documents).map (·.file) := by
  rw [candidatesOf, List.map_append, List.map_flatMap]
  refine congrArg (· ++ _) (List.flatMap_congr fun target _ => ?_)
  rw [draftsOfScope, List.map_map]
  exact List.map_id _

/-- A run reports nothing exactly when no document fails, no scope has a conflict and no two
    candidates share a title. -/
theorem silent_iff :
    (Generation.ofDocuments build documents).diagnostics = [] ↔
      failuresOf build documents = [] ∧
      (∀ target ∈ targetsOf build documents, (scopeFiles build documents target).2 = []) ∧
      (((candidatesOf build documents).map (·.file)).map File.title).Nodup := by
  have hclashes : symbolClashesOf build documents =
      (targetsOf build documents).flatMap fun target => (scopeFiles build documents target).2 := by
    rw [symbolClashesOf, entries_scopesOf, List.flatMap_map]
    rfl
  have htitles : laterOfTitle (candidatesOf build documents) = [] ↔
      (((candidatesOf build documents).map (·.file)).map File.title).Nodup := by
    rw [← droppedDrafts_eq, droppedDrafts_eq_nil_iff, List.map_map]
    exact and_iff_left fun _ _ => List.not_mem_nil
  rw [ofDocuments_eq_of_candidatesOf, List.append_eq_nil_iff, List.append_eq_nil_iff,
    List.map_eq_nil_iff, htitles, hclashes, List.flatMap_eq_nil_iff, and_assoc]

/-- A run that reports nothing makes a file of each candidate. -/
theorem files_of_silent (h : (Generation.ofDocuments build documents).diagnostics = []) :
    (Generation.ofDocuments build documents).files =
      (candidatesOf build documents).map (·.file) := by
  have hnone : droppedDrafts [] (candidatesOf build documents) = [] := by
    rw [droppedDrafts_eq_nil_iff]
    refine ⟨?_, fun _ _ => List.not_mem_nil⟩
    have htitles := ((silent_iff build documents).mp h).2.2
    rw [List.map_map] at htitles
    exact htitles
  rw [ofDocuments_eq_of_candidatesOf, ← keptDrafts_eq, keptDrafts_eq_self hnone]

end Stages

section Order

variable (build : BuildSettings) {documents others : List Document}
  (hperm : documents.Perm others)

include hperm

theorem targetsOf_perm : (targetsOf build documents).Perm (targetsOf build others) :=
  Grouping.eraseDups_perm (((hperm.map _).filterMap _).map _)

theorem mem_tablesFor_congr (target : Target Layout) (t : LocatedTable) :
    t ∈ tablesFor build documents target ↔ t ∈ tablesFor build others target := by
  simp only [mem_tablesFor, hperm.mem_iff]

omit hperm in
/-- Tables of a scope that share a class share their name, if their documents have one stem. -/
theorem namedAlike_of_oneStemPerClass (h : OneStemPerClass build documents) (n : String) :
    NamedAlike (tablesFor build documents ⟨n, .nested⟩) := by
  intro t ht u hu hclass
  rcases (mem_tablesFor build documents).mp ht with ⟨d, hd, hread⟩
  rcases (mem_tablesFor build documents).mp hu with ⟨e, he, hread'⟩
  rcases source_of_table? hread with ⟨hkind, hlayout, _, hstem⟩
  rcases source_of_table? hread' with ⟨hkind', hlayout', _, hstem'⟩
  have hspace : namespaceFor? build d.settings = namespaceFor? build e.settings :=
    (namespace_of_table? hread).2.trans (namespace_of_table? hread').2.symm
  rw [hstem, hstem'] at hclass ⊢
  exact h d hd e he hkind hkind' hlayout hlayout' hspace hclass

/-- A scope without conflicts has the same files, whatever the order of the documents. -/
theorem scopeFiles_eq (hstems : OneStemPerClass build documents) (target : Target Layout)
    (hsilent : (scopeFiles build documents target).2 = []) :
    scopeFiles build others target = scopeFiles build documents target := by
  obtain ⟨n, layout⟩ := target
  refine Layout.files_eq_of_mem_iff (mem_tablesFor_congr build hperm _) hsilent ?_
  rintro rfl
  exact namedAlike_of_oneStemPerClass build hstems n

/-- Without conflicts, the candidates are the same up to their order. -/
theorem files_candidatesOf_perm (hstems : OneStemPerClass build documents)
    (hsilent : ∀ target ∈ targetsOf build documents, (scopeFiles build documents target).2 = []) :
    ((candidatesOf build documents).map (·.file)).Perm
      ((candidatesOf build others).map (·.file)) := by
  rw [files_candidatesOf, files_candidatesOf]
  refine List.Perm.append ?_ ((hperm.filterMap _).map _)
  -- The scopes come in another order, and each has the files that it had.
  have hscopes := (targetsOf_perm build hperm).flatMap_right fun target =>
    (scopeFiles build others target).1
  refine List.Perm.trans (List.Perm.of_eq ?_) hscopes
  refine List.flatMap_congr fun target htarget => ?_
  rw [scopeFiles_eq build hperm hstems target (hsilent target htarget)]

/-- The order of the documents does not matter for a run that reports nothing, if command tables
    that share a class have one stem: in any other order it reports nothing either, and it makes
    the same files. -/
theorem ofDocuments_perm (hstems : OneStemPerClass build documents)
    (hsilent : (Generation.ofDocuments build documents).diagnostics = []) :
    (Generation.ofDocuments build others).diagnostics = [] ∧
      (Generation.ofDocuments build others).files.Perm
        (Generation.ofDocuments build documents).files := by
  rcases (silent_iff build documents).mp hsilent with ⟨hfailures, hscopes, htitles⟩
  have hcandidates := files_candidatesOf_perm build hperm hstems hscopes
  have hsilentOther : (Generation.ofDocuments build others).diagnostics = [] := by
    refine (silent_iff build others).mpr ⟨?_, ?_, ?_⟩
    · have hreports := hperm.filterMap fun d => (d.read build).diagnostic?
      rw [show documents.filterMap _ = [] from hfailures] at hreports
      exact hreports.nil_eq.symm
    · intro target htarget
      have hmem := (targetsOf_perm build hperm).mem_iff.mpr htarget
      rw [scopeFiles_eq build hperm hstems target (hscopes target hmem)]
      exact hscopes target hmem
    · exact (hcandidates.map File.title).nodup_iff.mp htitles
  refine ⟨hsilentOther, ?_⟩
  rw [files_of_silent build documents hsilent, files_of_silent build others hsilentOther]
  exact hcandidates.symm

end Order

/-- Two tables that share their class and a GUID, and one in the other layout. -/
def sharingDocuments : List Document :=
  [.written "a/Menus.vsct" ⟨none, none⟩ [⟨"guidMenus", ⟨1⟩, [⟨"Run", 1⟩]⟩],
   .written "b/Menus.vsct" ⟨some "Tool", none⟩ [⟨"Menus", ⟨1⟩, [⟨"Stop", 2⟩, ⟨"Run", 1⟩]⟩],
   .written "Keys.vsct" ⟨none, some "VsixSynchronizer"⟩ [⟨"guidMenus", ⟨2⟩, [⟨"Run", 3⟩]⟩]]

/-- A run over two tables of one class makes the same files when they change places. -/
theorem ofDocuments_perm_sharingDocuments :
    sharingDocuments.Perm sharingDocuments.reverse ∧
    OneStemPerClass ⟨some "Tool", none⟩ sharingDocuments ∧
    (Generation.ofDocuments ⟨some "Tool", none⟩ sharingDocuments).diagnostics = [] ∧
    (Generation.ofDocuments ⟨some "Tool", none⟩ sharingDocuments.reverse).diagnostics = [] ∧
    (Generation.ofDocuments ⟨some "Tool", none⟩ sharingDocuments.reverse).files.Perm
      (Generation.ofDocuments ⟨some "Tool", none⟩ sharingDocuments).files := by
  have hperm : sharingDocuments.Perm sharingDocuments.reverse :=
    (List.reverse_perm sharingDocuments).symm
  have hstems : OneStemPerClass ⟨some "Tool", none⟩ sharingDocuments := by decide +kernel
  have hreads : sharingDocuments.map (Document.read ⟨some "Tool", none⟩) =
      [.table "Tool" .nested ⟨"a/Menus.vsct", "Menus", [⟨"guidMenus", ⟨1⟩, [⟨"Run", 1⟩]⟩]⟩,
       .table "Tool" .nested
         ⟨"b/Menus.vsct", "Menus", [⟨"Menus", ⟨1⟩, [⟨"Stop", 2⟩, ⟨"Run", 1⟩]⟩]⟩,
       .table "Tool" .flat ⟨"Keys.vsct", "Keys", [⟨"guidMenus", ⟨2⟩, [⟨"Run", 3⟩]⟩]⟩] := by
    simp only [sharingDocuments, List.map_cons, List.map_nil]
    rw [Document.read_written (by decide +kernel) (show _ = some "Tool" by decide +kernel),
      Document.read_written (by decide +kernel) (show _ = some "Tool" by decide +kernel),
      Document.read_written (by decide +kernel) (show _ = some "Tool" by decide +kernel)]
    decide +kernel
  have hsilent :
      (Generation.ofDocuments ⟨some "Tool", none⟩ sharingDocuments).diagnostics = [] := by
    rw [Generation.ofDocuments, hreads]
    decide +kernel
  exact ⟨hperm, hstems, hsilent, ofDocuments_perm ⟨some "Tool", none⟩ hperm hstems hsilent⟩

end PackageSymbols

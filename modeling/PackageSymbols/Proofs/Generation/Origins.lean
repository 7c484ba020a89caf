import PackageSymbols.Proofs.Classes.Order
import PackageSymbols.Proofs.Generation.Candidates

/-!
# Who Is Told of a Dropped File

A file may hold symbols of many documents, while the warning about its name is
put at one of them. Which one is found out from the file after it was made: in
the nested layout by a search for a table that leads to its name, and otherwise
by taking the first table of the scope.

The search finds the right table. Tables that lead to one file have one
identifier, so all that it may come upon are tables of the class in question; and
since the file is named after the first of these, it comes upon that one. So of
the tables of a class the first is told. The others are not, and neither are
those behind the first table of a flat scope.

A nested scope never clashes with itself. Its files are named after
tables of different identifiers, and a name that was made fit for a file still
has the identifier that it had before, so the names of the files differ too.

## Main definitions

* `contributions`: The files of a scope with the tables that have symbols in each.
* `spokesman?`: The table that is told of a file.
* `fileOfGroup`: The file of tables that were gathered by their identifier.
* `IsDropped`, `IsTold`: What becomes of a file, and of whom a report tells.

## Theorems

* `map_fst_contributions`: The files with contributions are those of the scope.
* `reportedAt_eq`: A file is reported at its spokesman.
* `nodup_fileNames`: No two files of a nested scope share a name.
* `nestedFiles_attributed`: Each of them is reported at the first of its tables.
* `isTold_spokesman`: The spokesman of a file is told if it is dropped.
-/

namespace PackageSymbols

open Identifier Source

/-- The files of a scope, each with the tables that have symbols in it. -/
def contributions (languageVersion : String) (target : Target Layout)
    (tables : List LocatedTable) : List (File × List LocatedTable) :=
  match target.layout with
  | .nested => (TableClass.ofTables tables).1.map fun c =>
      (nestedFile target.namespaceName languageVersion c, tablesNamed tables c.name)
  | .flat => (flatFiles target.namespaceName languageVersion (FlatClasses.ofTables tables).1).zip
      [tables.filter fun t => !t.table.guids.isEmpty, tables.filter fun t => !t.table.ids.isEmpty]

theorem map_fst_contributions (languageVersion : String) (target : Target Layout)
    (tables : List LocatedTable) :
    (contributions languageVersion target tables).map Prod.fst =
      (target.layout.files target.namespaceName languageVersion tables).1 := by
  obtain ⟨n, layout⟩ := target
  cases layout with
  | nested =>
      rw [contributions, List.map_map]
      rfl
  | flat => rfl

/-- The table that is told of a file of a scope, given the tables that have symbols in it. -/
def spokesman? (layout : Layout) (tables contributors : List LocatedTable) : Option LocatedTable :=
  match layout with
  | .nested => contributors.head?
  | .flat => tables.head?

/-- A file of the nested layout is reported at the first table of its class. -/
theorem find?_nestedFileName {tables : List LocatedTable} {c : TableClass}
    (hc : c ∈ (TableClass.ofTables tables).1) {first : LocatedTable}
    (hfirst : (tablesNamed tables c.name).head? = some first) :
    tables.find? (fun t => nestedFileName t.table.name == nestedFileName c.tableName) =
      some first := by
  rcases exists_first_of_mem_ofTables hc with ⟨t, ht, hname⟩
  rw [hfirst, Option.some.injEq] at ht
  rw [tablesNamed, List.head?_filter] at hfirst
  rcases List.find?_eq_some_iff_append.mp hfirst with ⟨_, before, behind, htables, hothers⟩
  refine List.find?_eq_some_iff_append.mpr ⟨?_, before, behind, htables, ?_⟩
  · rw [hname, ht]
    exact beq_self_eq_true _
  -- A table before it that led to the file would have the identifier of the class.
  · intro t ht
    have hother := hothers t ht
    rw [Bool.not_eq_true', beq_eq_false_iff_ne] at hother ⊢
    exact fun hfile => hother ((ofName_eq_of_fileName_eq hfile).trans (ofName_tableName hc))

/-- A file of a scope is reported at its spokesman, and there is one. -/
theorem reportedAt_eq {languageVersion : String} {target : Target Layout}
    {tables : List LocatedTable} {entry : File × List LocatedTable} (hsome : tables ≠ [])
    (h : entry ∈ contributions languageVersion target tables) :
    ∃ t ∈ tables, spokesman? target.layout tables entry.2 = some t ∧
      reportedAt target.layout tables entry.1 = Location.ofPath t.path := by
  obtain ⟨n, layout⟩ := target
  -- Nested files are reported at the first table of their class, flat ones at the first of all.
  cases layout with
  | nested =>
      rcases List.mem_map.mp h with ⟨c, hc, rfl⟩
      rcases exists_first_of_mem_ofTables hc with ⟨first, hfirst, _⟩
      have hfind := find?_nestedFileName hc hfirst
      refine ⟨first, List.mem_of_find?_eq_some hfind, hfirst, ?_⟩
      have hfile : tableOfFile? .nested tables (nestedFile n languageVersion c).name =
          some first := hfind
      rw [reportedAt, hfile]
      rfl
  | flat =>
      cases tables with
      | nil => exact absurd rfl hsome
      | cons t rest => exact ⟨t, List.mem_cons_self, rfl, rfl⟩

section Nested

variable (namespaceName languageVersion : String) (tables : List LocatedTable)

/-- The file of a group of tables that have one identifier. -/
def fileOfGroup (group : String × List LocatedTable) : File :=
  nestedFile namespaceName languageVersion
    (TableClass.ofMembers (guidsOf tables).constants group.1 group.2).1

/-- A group is the tables of one identifier, and its file is that of a class of the scope. -/
theorem fileOfGroup_of_mem {group : String × List LocatedTable}
    (h : group ∈ (tablesByIdentifier tables).entries) :
    group.2 = tablesNamed tables group.1 ∧
      tableClass tables group.1 ∈ (TableClass.ofTables tables).1 ∧
      fileOfGroup namespaceName languageVersion tables group =
        nestedFile namespaceName languageVersion (tableClass tables group.1) := by
  rcases mem_tablesByIdentifier.mp h with ⟨⟨t, ht, hname⟩, hmembers⟩
  refine ⟨hmembers, mem_ofTables.mpr ⟨t, ht, by rw [hname]⟩, ?_⟩
  rw [fileOfGroup, hmembers, tableClass]

/-- Every file of the nested layout is that of a group, and every group has its file. -/
theorem files_perm_groups : (Layout.nested.files namespaceName languageVersion tables).1.Perm
    ((tablesByIdentifier tables).entries.map
      (fileOfGroup namespaceName languageVersion tables)) := by
  have hclasses := (sortBy_perm TableClass.precedes ((tablesByIdentifier tables).entries.map
    fun entry => (TableClass.ofMembers (guidsOf tables).constants entry.1 entry.2).1)).map
      (nestedFile namespaceName languageVersion)
  rw [List.map_map] at hclasses
  rw [Layout.files, TableClass.ofTables]
  simp only [List.map_map]
  exact hclasses

/-- No two files of the nested layout share a name. -/
theorem nodup_fileNames :
    ((Layout.nested.files namespaceName languageVersion tables).1.map (·.name)).Nodup := by
  rw [Layout.files, List.map_map]
  refine List.pairwise_map.mpr ((increasing_ofTables tables).imp_of_mem ?_)
  intro c e hc he hlt hfile
  -- Classes of one file would have one identifier, and an identifier has one class.
  have hname : ofName c.tableName = ofName e.tableName := ofName_eq_of_fileName_eq hfile
  rw [ofName_tableName hc, ofName_tableName he] at hname
  rw [hname] at hlt
  exact String.lt_irrefl e.name hlt

/-- The files of a nested scope have names of their own, and each is reported at the first of the
    tables that are gathered in it. The file names are stricter than the names of the tables, but
    keep their identifiers. -/
theorem nestedFiles_attributed :
    (∀ name, ofName (FileName.ofName name) = ofName name) ∧
    ((Layout.nested.files namespaceName languageVersion tables).1.map (·.name)).Nodup ∧
    (Layout.nested.files namespaceName languageVersion tables).1.Perm
      ((tablesByIdentifier tables).entries.map
        (fileOfGroup namespaceName languageVersion tables)) ∧
    ∀ group ∈ (tablesByIdentifier tables).entries,
      group.2 = tables.filter (fun t => ofName t.table.name == group.1) ∧
      ∃ first rest, group.2 = first :: rest ∧
        reportedAt .nested tables (fileOfGroup namespaceName languageVersion tables group) =
          Location.ofPath first.path := by
  refine ⟨ofName_fileName, nodup_fileNames _ _ _, files_perm_groups _ _ _, ?_⟩
  intro group hgroup
  rcases fileOfGroup_of_mem namespaceName languageVersion tables hgroup with
    ⟨hmembers, hclass, hfile⟩
  have hentry : (nestedFile namespaceName languageVersion (tableClass tables group.1),
      tablesNamed tables group.1) ∈
        contributions languageVersion ⟨namespaceName, .nested⟩ tables :=
    List.mem_map.mpr ⟨_, hclass, rfl⟩
  have hsome : tables ≠ [] := by
    rcases mem_ofTables.mp hclass with ⟨t, ht, _⟩
    exact List.ne_nil_of_mem ht
  rcases reportedAt_eq hsome hentry with ⟨first, _, hfirst, hreported⟩
  rcases List.head?_eq_some_iff.mp hfirst with ⟨rest, hrest⟩
  exact ⟨hmembers, first, rest, hmembers.trans hrest, by rw [hfile, hreported]⟩

/-- Tables of one identifier whose file names would differ, and another table between them. -/
def alikeTables : List LocatedTable :=
  [⟨"a/Menus-.vsct", "Menus-", []⟩, ⟨"Icons.vsct", "Icons", []⟩, ⟨"b/Menus+.vsct", "Menus+", []⟩]

/-- The file of tables of one identifier is reported at the first of them. -/
theorem nestedFiles_attributed_alikeTables :
    ∃ first second, (("Menus_", [first, second]) : String × List LocatedTable) ∈
        (tablesByIdentifier alikeTables).entries ∧ second.path = "b/Menus+.vsct" ∧
      reportedAt .nested alikeTables
        (fileOfGroup "Tool" "7.3" alikeTables ("Menus_", [first, second])) =
          Location.ofPath "a/Menus-.vsct" := by
  have hgroup : (("Menus_", [⟨"a/Menus-.vsct", "Menus-", []⟩, ⟨"b/Menus+.vsct", "Menus+", []⟩]) :
      String × List LocatedTable) ∈ (tablesByIdentifier alikeTables).entries := by
    decide +kernel
  rcases (nestedFiles_attributed "Tool" "7.3" alikeTables).2.2.2 _ hgroup with
    ⟨_, first, rest, hfirst, hreported⟩
  rw [← (List.cons.inj hfirst).1] at hreported
  exact ⟨_, _, hgroup, rfl, hreported⟩

end Nested

section Run

variable (build : BuildSettings) (documents : List Document)

/-- Whether a file of a scope is dropped since its name is taken. -/
def IsDropped (target : Target Layout) (file : File) : Prop :=
  ∃ draft ∈ laterOfTitle (candidatesOf build documents),
    draft ∈ (draftsOfScope build.languageVersionOrDefault target
      (tablesFor build documents target)).1 ∧ draft.file = file

/-- Whether a warning at a path says that the name of a file is taken. -/
def IsTold (file : File) (path : String) : Prop :=
  ∃ report ∈ (Generation.ofDocuments build documents).diagnostics,
    report.problem = .takenFileName file.namespaceName file.name ∧
      report.location.path = some path

theorem tablesFor_ne_nil {target : Target Layout} (h : target ∈ targetsOf build documents) :
    tablesFor build documents target ≠ [] := by
  rw [targetsOf, List.mem_eraseDups] at h
  rcases List.mem_map.mp h with ⟨item, hitem, rfl⟩
  exact List.ne_nil_of_mem (Grouping.mem_membersIn.mpr hitem)

/-- If a file is dropped, then the document of the table that is its spokesman is told. -/
theorem isTold_spokesman {target : Target Layout} (htarget : target ∈ targetsOf build documents)
    {entry : File × List LocatedTable}
    (hentry : entry ∈ contributions build.languageVersionOrDefault target
      (tablesFor build documents target))
    (hdropped : IsDropped build documents target entry.1) :
    ∃ t, spokesman? target.layout (tablesFor build documents target) entry.2 = some t ∧
      (∃ d ∈ documents, (d.read build).table? = some (target, t) ∧ d.path = t.path) ∧
      IsTold build documents entry.1 t.path := by
  rcases reportedAt_eq (tablesFor_ne_nil build documents htarget) hentry with
    ⟨t, ht, hspokesman, hreported⟩
  rcases (mem_tablesFor build documents).mp ht with ⟨d, hd, hread⟩
  refine ⟨t, hspokesman, ⟨d, hd, hread, (source_of_table? hread).2.2.1.symm⟩, ?_⟩
  -- A candidate that comes too late gives a report, at the place where its file is reported.
  rcases hdropped with ⟨draft, hlater, hdraft, hfile⟩
  refine ⟨draft.clash, ?_, ?_, ?_⟩
  · rw [ofDocuments_eq_of_candidatesOf]
    exact List.mem_append_right _ (List.mem_map_of_mem hlater)
  · rw [Draft.clash, hfile]
  · rcases List.mem_map.mp hdraft with ⟨file, _, rfl⟩
    rw [Draft.clash, show file = entry.1 from hfile, hreported]
    rfl

end Run

section Crowded

/-- A nested table that leads to the name of a file of the flat layout, and two flat tables. -/
def crowdedDocuments : List Document :=
  [.written "PackageGuids.vsct" ⟨none, none⟩ [],
   .written "First.vsct" ⟨none, some "VsixSynchronizer"⟩ [⟨"guidFirst", ⟨1⟩, []⟩],
   .written "Second.vsct" ⟨none, some "VsixSynchronizer"⟩ [⟨"guidSecond", ⟨2⟩, []⟩]]

/-- The flat tables of these documents. -/
def crowdedTables : List LocatedTable :=
  [⟨"First.vsct", "First", [⟨"guidFirst", ⟨1⟩, []⟩]⟩,
   ⟨"Second.vsct", "Second", [⟨"guidSecond", ⟨2⟩, []⟩]⟩]

theorem read_crowdedDocuments : crowdedDocuments.map (Document.read ⟨some "Tool", none⟩) =
    .table "Tool" .nested ⟨"PackageGuids.vsct", "PackageGuids", []⟩ ::
      crowdedTables.map (Outcome.table "Tool" .flat) := by
  simp only [crowdedDocuments, List.map_cons, List.map_nil]
  rw [Document.read_written (by decide +kernel) (show _ = some "Tool" by decide +kernel),
    Document.read_written (by decide +kernel) (show _ = some "Tool" by decide +kernel),
    Document.read_written (by decide +kernel) (show _ = some "Tool" by decide +kernel)]
  decide +kernel

theorem tablesOf_crowdedDocuments : tablesOf ⟨some "Tool", none⟩ crowdedDocuments =
    (⟨"Tool", .nested⟩, ⟨"PackageGuids.vsct", "PackageGuids", []⟩) ::
      crowdedTables.map fun t => (⟨"Tool", .flat⟩, t) := by
  rw [tablesOf, read_crowdedDocuments]
  rfl

theorem tablesFor_crowdedDocuments :
    tablesFor ⟨some "Tool", none⟩ crowdedDocuments ⟨"Tool", .flat⟩ = crowdedTables := by
  rw [tablesFor, tablesOf_crowdedDocuments]
  decide +kernel

theorem mem_targetsOf_crowdedDocuments :
    ⟨"Tool", .flat⟩ ∈ targetsOf ⟨some "Tool", none⟩ crowdedDocuments := by
  rw [targetsOf, tablesOf_crowdedDocuments]
  decide +kernel

/-- Both flat tables have a GUID in the file that is dropped. -/
theorem exists_dropped_crowdedDocuments :
    ∃ entry ∈ contributions "7.3" ⟨"Tool", .flat⟩ crowdedTables, entry.2 = crowdedTables ∧
      IsDropped ⟨some "Tool", none⟩ crowdedDocuments ⟨"Tool", .flat⟩ entry.1 := by
  simp only [IsDropped, ← draftsOf_eq_candidatesOf, read_crowdedDocuments,
    tablesFor_crowdedDocuments]
  decide +kernel

/-- Of two documents whose file is dropped the first is told. -/
theorem isTold_spokesman_crowdedDocuments :
    ∃ file, IsDropped ⟨some "Tool", none⟩ crowdedDocuments ⟨"Tool", .flat⟩ file ∧
      IsTold ⟨some "Tool", none⟩ crowdedDocuments file "First.vsct" := by
  rcases exists_dropped_crowdedDocuments with ⟨entry, hentry, _, hdropped⟩
  rw [← tablesFor_crowdedDocuments] at hentry
  rcases isTold_spokesman ⟨some "Tool", none⟩ crowdedDocuments mem_targetsOf_crowdedDocuments
    hentry hdropped with ⟨t, hspokesman, _, htold⟩
  rw [tablesFor_crowdedDocuments] at hspokesman
  rw [← Option.some.inj hspokesman] at htold
  exact ⟨entry.1, hdropped, htold⟩

/-- Not every document that has symbols in a dropped file is told. -/
theorem not_forall_isTold :
    ¬ ∀ (build : BuildSettings) (documents : List Document),
      ∀ target ∈ targetsOf build documents,
      ∀ entry ∈ contributions build.languageVersionOrDefault target
        (tablesFor build documents target),
      IsDropped build documents target entry.1 →
      ∀ t ∈ entry.2, IsTold build documents entry.1 t.path := by
  intro hall
  rcases exists_dropped_crowdedDocuments with ⟨entry, hentry, hcontributors, hdropped⟩
  rw [← tablesFor_crowdedDocuments] at hentry
  have hsecond : ⟨"Second.vsct", "Second", [⟨"guidSecond", ⟨2⟩, []⟩]⟩ ∈ entry.2 := by
    rw [hcontributors]
    exact List.mem_cons_of_mem _ List.mem_cons_self
  rcases hall ⟨some "Tool", none⟩ crowdedDocuments _ mem_targetsOf_crowdedDocuments entry hentry
    hdropped _ hsecond with ⟨report, hreport, _, hpath⟩
  have hreports : ∀ report ∈
      (Generation.ofDocuments ⟨some "Tool", none⟩ crowdedDocuments).diagnostics,
      report.location.path ≠ some "Second.vsct" := by
    rw [Generation.ofDocuments, read_crowdedDocuments]
    decide +kernel
  exact hreports report hreport hpath

end Crowded

end PackageSymbols

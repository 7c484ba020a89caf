import Mathlib.Data.List.Forall2
import PackageSymbols.Proofs.Generation.Namespaces

/-!
# Language Versions Matter in One Line

Two runs over the same documents that differ in the language version report the
same and give the same files, but for the line that turns nullable reference
types on. Nothing that is decided on the way looks at the text of a file: a file
is dropped because of its name, and reported at a document that is found by its
name.

So the two runs stay in step. A file is written by `classFile` and by nothing
else, which is where two files become twins, and from there on every stage of a
run takes twins to twins.

That two runs are in step would be true of runs that do not look at the version
either. So it is also said which version a run uses, and what becomes of the files
where that version matters: of two versions only one of which knows nullable
reference types, the line is in all files of one run and in none of the other.

## Main definitions

* `bannerLines`, `nullableLines`: The lines in front of the line that depends on
  the version, and this line.
* `File.IsTwin`: Files that are one file in two language versions.
* `Generation.IsTwin`: Answers of two runs that are in step.

## Theorems

* `isTwin_classFile`: A file is a twin of itself in another version.
* `isTwin_add`: Adding twins keeps two runs in step.
* `ofDocuments_languageVersions`: Runs over the same documents in two language
  versions report the same, and give twins.
* `languageVersionOrDefault_of_set`, `languageVersionOrDefault_of_unset`: The version
  that a run uses.
* `ofDocuments_of_knowsNullable`: Where the version matters it is seen in every file.
-/

namespace PackageSymbols

open Source

namespace Source

/-- The lines in front of the one that depends on the version. -/
def bannerLines : List String :=
  ["// <auto-generated>", "//     This code was generated by vsix-codegen.", "// </auto-generated>"]

/-- The line that turns nullable reference types on, in versions that know them. -/
def nullableLines (languageVersion : String) : List String :=
  if knowsNullable languageVersion then ["#nullable enable"] else []

/-- Whether two files are one file in two language versions. -/
structure File.IsTwin (version version' : String) (f f' : File) : Prop where
  /-- They declare in the same namespace. -/
  namespaceName : f.namespaceName = f'.namespaceName
  /-- They have the same name. -/
  name : f.name = f'.name
  /-- They have the same lines, but for the one that depends on the version. -/
  content : ∃ body, f.content = joinLines (bannerLines ++ nullableLines version ++ body) ∧
    f'.content = joinLines (bannerLines ++ nullableLines version' ++ body)

section Files

variable (version version' : String)

theorem linesAt_preamble_eq (outline : List Step) :
    linesAt 0 (preamble version ++ outline) =
      bannerLines ++ nullableLines version ++ "" :: linesAt 0 outline := by
  rw [preamble, nullableLines]
  by_cases hknows : knowsNullable version = true
  · rw [if_pos hknows, if_pos hknows]
    rfl
  · rw [if_neg hknows, if_neg hknows]
    rfl

/-- A file is a twin of itself in another version. -/
theorem isTwin_classFile (namespaceName name documentation className : String)
    (members : List Step) :
    (classFile namespaceName version name documentation className members).IsTwin version version'
      (classFile namespaceName version' name documentation className members) := by
  refine ⟨rfl, rfl, ?_⟩
  refine ⟨"" :: linesAt 0 (namespaceSteps namespaceName
    (classSteps documentation className members)), ?_, ?_⟩
  · rw [classFile, render, linesAt_preamble_eq]
  · rw [classFile, render, linesAt_preamble_eq]

/-- The files of a scope in two versions are twins. -/
theorem forall₂_files (layout : Layout) (namespaceName : String) (tables : List LocatedTable) :
    List.Forall₂ (File.IsTwin version version') (layout.files namespaceName version tables).1
      (layout.files namespaceName version' tables).1 := by
  cases layout with
  | nested =>
      simp only [Layout.files, List.forall₂_map_left_iff, List.forall₂_map_right_iff,
        List.forall₂_same]
      exact fun c _ => isTwin_classFile version version' _ _ _ _ _
  | flat =>
      exact .cons (isTwin_classFile version version' _ _ _ _ _)
        (.cons (isTwin_classFile version version' _ _ _ _ _) .nil)

theorem diagnostics_files (layout : Layout) (namespaceName : String) (tables : List LocatedTable) :
    (layout.files namespaceName version tables).2 =
      (layout.files namespaceName version' tables).2 := by
  cases layout with
  | nested => rfl
  | flat => rfl

end Files

end Source

section Drafts

variable (version version' : String)

/-- Whether two drafts are of twins, and reported at the same document. -/
structure Draft.IsTwin (d d' : Draft) : Prop where
  /-- The files are twins. -/
  file : d.file.IsTwin version version' d'.file
  /-- They are reported at the same document. -/
  origin : d.origin = d'.origin

variable {version version'} in
theorem reportedAt_of_isTwin {f f' : File} (h : f.IsTwin version version' f') (layout : Layout)
    (tables : List LocatedTable) : reportedAt layout tables f = reportedAt layout tables f' := by
  -- The document is found by the name of the file.
  rw [reportedAt, reportedAt, h.name]

theorem forall₂_draftsOfScope (target : Target Layout) (tables : List LocatedTable) :
    List.Forall₂ (Draft.IsTwin version version') (draftsOfScope version target tables).1
      (draftsOfScope version' target tables).1 := by
  rw [draftsOfScope, List.forall₂_map_left_iff, draftsOfScope, List.forall₂_map_right_iff]
  exact (forall₂_files version version' target.layout target.namespaceName tables).imp
    fun _ _ h => ⟨h, reportedAt_of_isTwin h target.layout tables⟩

theorem forall₂_manifestDrafts (outcomes : List Outcome) :
    List.Forall₂ (Draft.IsTwin version version')
      (outcomes.filterMap (Outcome.manifestDraft? version))
      (outcomes.filterMap (Outcome.manifestDraft? version')) := by
  induction outcomes with
  | nil => exact .nil
  | cons outcome outcomes ih =>
      cases outcome with
      | manifest namespaceName path values =>
          exact .cons ⟨isTwin_classFile version version' _ _ _ _ _, rfl⟩ ih
      | _ => exact ih

/-- The drafts of a run in two versions are twins. -/
theorem forall₂_draftsOf (outcomes : List Outcome) :
    List.Forall₂ (Draft.IsTwin version version') (draftsOf version outcomes).1
      (draftsOf version' outcomes).1 := by
  have hsame : List.Forall₂ Eq (scopesOf outcomes).entries (scopesOf outcomes).entries :=
    List.forall₂_same.mpr fun _ _ => rfl
  simp only [draftsOf, List.flatMap_map]
  refine List.rel_append ?_ (forall₂_manifestDrafts version version' outcomes)
  refine List.rel_flatMap hsame ?_
  rintro entry _ rfl
  exact forall₂_draftsOfScope version version' entry.1 entry.2

theorem diagnostics_draftsOf (outcomes : List Outcome) :
    (draftsOf version outcomes).2 = (draftsOf version' outcomes).2 := by
  have hscope : ∀ entry : Target Layout × List LocatedTable,
      (draftsOfScope version entry.1 entry.2).2 = (draftsOfScope version' entry.1 entry.2).2 :=
    fun entry => diagnostics_files version version' entry.1.layout _ entry.2
  rw [warnings_draftsOf, warnings_draftsOf]
  exact congrArg (List.flatMap · (scopesOf outcomes).entries) (funext hscope)

end Drafts

namespace BuildSettings

variable {build : BuildSettings}

/-- A version that is set is used as it is set, unless it is blank. -/
theorem languageVersionOrDefault_of_set {version : String}
    (hset : build.languageVersion = some version) (hblank : Text.isBlankText version = false) :
    build.languageVersionOrDefault = version := by
  have hpass : (!Text.isBlankText version) = true := by
    rw [hblank]
    rfl
  rw [languageVersionOrDefault, hset, given,
    Option.filter_some_pos (p := fun s => !Text.isBlankText s) hpass, Option.getD_some]

/-- Where no version is set, or a blank one, the version is `7.3`. -/
theorem languageVersionOrDefault_of_unset
    (h : ∀ version ∈ build.languageVersion, Text.isBlankText version = true) :
    build.languageVersionOrDefault = "7.3" := by
  have hnone : given build.languageVersion = none := by
    rw [given, Option.filter_eq_none_iff]
    intro version hversion
    rw [h version hversion]
    exact Bool.false_ne_true
  rw [languageVersionOrDefault, hnone, Option.getD_none, defaultLanguageVersion]

end BuildSettings

namespace Generation

variable {version version' : String}

/-- Whether the answers of two runs are in step: they report the same, and their files are
    twins. -/
structure IsTwin (version version' : String) (g g' : Generation) : Prop where
  /-- They report the same. -/
  diagnostics : g.diagnostics = g'.diagnostics
  /-- Their files are twins, in the same order. -/
  files : List.Forall₂ (File.IsTwin version version') g.files g'.files

theorem any_isNamed_of_forall₂ {files files' : List File}
    (h : List.Forall₂ (File.IsTwin version version') files files') (namespaceName name : String) :
    files.any (isNamed namespaceName name) = files'.any (isNamed namespaceName name) := by
  induction h with
  | nil => rfl
  | cons hfile _ ih =>
      rw [List.any_cons, List.any_cons, ih, isNamed, isNamed, hfile.namespaceName, hfile.name]

/-- Adding twins keeps two runs in step. -/
theorem isTwin_add {g g' : Generation} (hg : IsTwin version version' g g') {d d' : Draft}
    (hd : d.IsTwin version version' d') : IsTwin version version' (g.add d) (g'.add d') := by
  have hclash : d.clash = d'.clash := by
    rw [Draft.clash, Draft.clash, hd.file.namespaceName, hd.file.name, hd.origin]
  rw [add, add, hd.file.namespaceName, hd.file.name, any_isNamed_of_forall₂ hg.files]
  by_cases htaken :
      g'.files.any (isNamed d'.file.namespaceName d'.file.name) = true
  · rw [if_pos htaken, if_pos htaken, hclash, hg.diagnostics]
    exact ⟨rfl, hg.files⟩
  · rw [if_neg htaken, if_neg htaken]
    exact ⟨hg.diagnostics, List.rel_append hg.files (.cons hd.file .nil)⟩

/-- Adding rows of twins keeps two runs in step. -/
theorem isTwin_foldl_add {drafts drafts' : List Draft}
    (h : List.Forall₂ (Draft.IsTwin version version') drafts drafts') :
    ∀ {g g' : Generation}, IsTwin version version' g g' →
      IsTwin version version' (drafts.foldl add g) (drafts'.foldl add g') := by
  induction h with
  | nil => exact fun hg => hg
  | cons hd _ ih => exact fun hg => ih (isTwin_add hg hd)

/-- How a document is read does not depend on the version. -/
theorem read_eq_of_rootNamespace {build build' : BuildSettings}
    (h : build.rootNamespace = build'.rootNamespace) (d : Document) :
    d.read build = d.read build' := by
  have hspace : namespaceFor? build d.settings = namespaceFor? build' d.settings := by
    rw [namespaceFor?, namespaceFor?, h]
  rw [Document.read, Document.read, hspace]

/-- Runs over the same documents in two language versions stay in step. -/
theorem isTwin_ofDocuments {build build' : BuildSettings}
    (h : build.rootNamespace = build'.rootNamespace) (documents : List Document) :
    IsTwin build.languageVersionOrDefault build'.languageVersionOrDefault
      (ofDocuments build documents) (ofDocuments build' documents) := by
  have hread : documents.map (Document.read build) = documents.map (Document.read build') :=
    List.map_congr_left fun d _ => read_eq_of_rootNamespace h d
  simp only [ofDocuments, hread]
  rw [diagnostics_draftsOf build.languageVersionOrDefault build'.languageVersionOrDefault]
  exact isTwin_foldl_add (forall₂_draftsOf _ _ _) ⟨rfl, .nil⟩

/-- Twins are equal where both versions know nullable reference types or neither does. -/
theorem eq_of_isTwin (hknows : knowsNullable version = knowsNullable version') {f f' : File}
    (h : f.IsTwin version version' f') : f = f' := by
  rcases f with ⟨namespaceName, name, content⟩
  rcases f' with ⟨namespaceName', name', content'⟩
  rcases h with ⟨hspace, hname, body, hcontent, hcontent'⟩
  rw [nullableLines, hknows] at hcontent
  simp only [File.mk.injEq]
  exact ⟨hspace, hname, hcontent.trans hcontent'.symm⟩

/-- Runs over the same documents in two language versions report the same, and their files are
    twins. If both versions know nullable reference types or neither does, the files are equal. -/
theorem ofDocuments_languageVersions
    (rootNamespace languageVersion languageVersion' : Option String) (documents : List Document) :
    let build : BuildSettings := ⟨rootNamespace, languageVersion⟩
    let build' : BuildSettings := ⟨rootNamespace, languageVersion'⟩
    let g := ofDocuments build documents
    let g' := ofDocuments build' documents
    let version := build.languageVersionOrDefault
    let version' := build'.languageVersionOrDefault
    g.diagnostics = g'.diagnostics ∧
      List.Forall₂ (File.IsTwin version version') g.files g'.files ∧
      (knowsNullable version = knowsNullable version' → g.files = g'.files) := by
  intro build build' g g' version version'
  have hroot : build.rootNamespace = build'.rootNamespace := rfl
  have htwin : IsTwin version version' g g' := isTwin_ofDocuments hroot documents
  refine ⟨htwin.diagnostics, htwin.files, fun hknows => ?_⟩
  have hequal : List.Forall₂ Eq g.files g'.files :=
    htwin.files.imp fun _ _ => eq_of_isTwin hknows
  rw [List.forall₂_eq_eq_eq] at hequal
  exact hequal

/-- Twins have different texts where only one of the versions knows nullable reference types. -/
theorem exists_body_of_isTwin (hold : knowsNullable version = false)
    (hnew : knowsNullable version' = true) {f f' : File} (h : f.IsTwin version version' f') :
    ∃ body, f.content = joinLines (bannerLines ++ body) ∧
      f'.content = joinLines (bannerLines ++ "#nullable enable" :: body) ∧
      f.content ≠ f'.content := by
  rcases h.content with ⟨body, hcontent, hcontent'⟩
  rw [nullableLines, hold, if_neg Bool.false_ne_true, List.append_nil] at hcontent
  rw [nullableLines, hnew, if_pos rfl, List.append_assoc, List.singleton_append] at hcontent'
  refine ⟨body, hcontent, hcontent', fun hsame => ?_⟩
  -- One text is longer than the other by the line.
  have hlonger : (joinLines (bannerLines ++ "#nullable enable" :: body)).length =
      (joinLines (bannerLines ++ body)).length + ("#nullable enable" ++ "\n").length := by
    rw [joinLines, joinLines, List.map_append, List.map_append, List.map_cons, String.join_append,
      String.join_append, String.join_cons]
    simp only [String.length_append]
    omega
  have hline : 0 < ("#nullable enable" ++ "\n").length := by decide
  rw [← hcontent', ← hcontent, hsame] at hlonger
  omega

/-- Of two runs only one of which is set to a version that knows nullable reference types, each
    file has the line in this one and is without it in the other. -/
theorem ofDocuments_of_knowsNullable {old new : BuildSettings}
    (hroot : old.rootNamespace = new.rootNamespace) {version version' : String}
    (hset : old.languageVersion = some version) (hset' : new.languageVersion = some version')
    (hblank : Text.isBlankText version = false) (hblank' : Text.isBlankText version' = false)
    (hold : knowsNullable version = false) (hnew : knowsNullable version' = true)
    (documents : List Document) :
    List.Forall₂ (fun f f' => ∃ body, f.content = joinLines (bannerLines ++ body) ∧
        f'.content = joinLines (bannerLines ++ "#nullable enable" :: body) ∧
        f.content ≠ f'.content)
      (ofDocuments old documents).files (ofDocuments new documents).files := by
  have htwin := isTwin_ofDocuments hroot documents
  rw [BuildSettings.languageVersionOrDefault_of_set hset hblank,
    BuildSettings.languageVersionOrDefault_of_set hset' hblank'] at htwin
  exact htwin.files.imp fun _ _ => exists_body_of_isTwin hold hnew

/-- A document with one symbol. -/
def menus : Document :=
  .written "Menus.vsct" ⟨none, none⟩ [⟨"A", ⟨1⟩, []⟩]

/-- The default version and a later one are told apart by what becomes of that document. -/
theorem files_ne_of_menus :
    (ofDocuments ⟨some "Tools", none⟩ [menus]).files ≠
      (ofDocuments ⟨some "Tools", some "8.0"⟩ [menus]).files := by
  decide +kernel

end Generation

end PackageSymbols

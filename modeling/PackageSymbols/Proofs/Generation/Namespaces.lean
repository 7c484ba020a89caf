import Mathlib.Data.List.Dedup
import Mathlib.Data.List.Perm.Basic
import PackageSymbols.Proofs.Generation.FileNames
import PackageSymbols.Proofs.Generation.Reading
import PackageSymbols.Proofs.Grouping

/-!
# Namespaces Do Not Interfere

The documents of a run fall into groups by the namespace they generate into,
with a group for those that have none. A run over all documents and the runs
over the groups are compared: the files of a namespace are those of its group,
and the diagnostics are those of all groups together.

The comparison goes stage by stage, and at each stage a part of the result is
singled out by its namespace. Tables and files of manifests name their namespace
when they are read; scopes carry it in their key and files in their title. What
one stage makes out of a part of its input is the same part of what it makes out
of everything. Diagnostics do not name a namespace, so for them the stages are
taken apart instead: each is a list of things that have a namespace, and such a
list is a permutation of its parts.

## Main definitions

* `groupOf`: The documents that generate into a namespace, or into none.
* `namespacesOf`: The namespaces of a run, with `none` if a document lacks one.

## Theorems

* `perm_flatMap_filter`: A list is a permutation of its parts.
* `draftsOf_groupOf`, `scopesOf_groupOf`: The stages of a group.
* `namespaces_independent`: A run is made of the runs over its groups.
-/

namespace PackageSymbols

open Source

section Parts

variable {α β κ : Type}

/-- A list is a permutation of its parts, one for each key. -/
theorem perm_flatMap_filter [BEq κ] [LawfulBEq κ] (key : α → κ) (keys : List κ)
    (hnodup : keys.Nodup) :
    ∀ as : List α, (∀ a ∈ as, key a ∈ keys) →
      as.Perm (keys.flatMap fun k => as.filter fun a => key a == k) := by
  induction keys with
  | nil =>
      intro as hcover
      rw [List.eq_nil_iff_forall_not_mem.mpr fun a ha => List.not_mem_nil (hcover a ha)]
      exact List.Perm.nil
  | cons k keys ih =>
      intro as hcover
      have hk := List.nodup_cons.mp hnodup
      -- What is left after the part of `k` has the other keys only.
      have hrest := ih hk.2 (as.filter fun a => !(key a == k)) (fun a ha => by
        have hmem := List.mem_filter.mp ha
        have hne : key a ≠ k := by
          intro h
          rw [h, beq_self_eq_true] at hmem
          exact absurd hmem.2 Bool.false_ne_true
        exact (List.mem_cons.mp (hcover a hmem.1)).resolve_left hne)
      have hsame : (keys.flatMap fun k' =>
          (as.filter fun a => !(key a == k)).filter fun a => key a == k') =
          keys.flatMap fun k' => as.filter fun a => key a == k' := by
        refine List.flatMap_congr (fun k' hk' => ?_)
        rw [List.filter_filter]
        refine List.filter_congr (fun a _ => ?_)
        by_cases h : key a = k'
        · have hne : k' ≠ k := fun he => hk.1 (he ▸ hk')
          rw [h, beq_self_eq_true, beq_eq_false_iff_ne.mpr hne]
          rfl
        · rw [beq_eq_false_iff_ne.mpr h, Bool.false_and]
      rw [hsame] at hrest
      rw [List.flatMap_cons]
      exact (List.filter_append_perm (fun a => key a == k) as).symm.trans (hrest.append_left _)

/-- What a part of a list leads to is a part of what the list leads to, if both parts agree. -/
theorem filterMap_filter_of_agree (f : α → Option β) (p : α → Bool) (q : β → Bool)
    {as : List α} (h : ∀ a ∈ as, ∀ b, f a = some b → p a = q b) :
    (as.filter p).filterMap f = (as.filterMap f).filter q := by
  rw [List.filterMap_filter, List.filter_filterMap]
  refine List.filterMap_congr (fun a ha => ?_)
  cases hf : f a with
  | none => rw [ite_self, Option.filter_none]
  | some b => rw [h a ha b hf, Option.filter_some]

theorem flatMap_filter_of_agree (f : α → List β) (p : α → Bool) (q : β → Bool)
    {as : List α} (h : ∀ a ∈ as, ∀ b ∈ f a, q b = p a) :
    (as.filter p).flatMap f = (as.flatMap f).filter q := by
  induction as with
  | nil => rfl
  | cons a as ih =>
      have hrest := ih fun b hb => h b (List.mem_cons_of_mem a hb)
      have ha := h a List.mem_cons_self
      rw [List.filter_cons, List.flatMap_cons, List.filter_append, ← hrest]
      by_cases hp : p a = true
      · rw [if_pos hp, List.flatMap_cons, List.filter_eq_self.mpr fun b hb => (ha b hb).trans hp]
      · rw [if_neg hp, List.filter_eq_nil_iff.mpr fun b hb hq => hp ((ha b hb) ▸ hq),
          List.nil_append]

end Parts

/-- The recognized documents of a namespace, or those that have none. -/
def groupOf (build : BuildSettings) (documents : List Document) (group : Option String) :
    List Document :=
  documents.filter fun d => d.isRecognized && namespaceFor? build d.settings == group

/-- The namespaces of the recognized documents, each once, with `none` for documents that have
    none. -/
def namespacesOf (build : BuildSettings) (documents : List Document) : List (Option String) :=
  ((documents.filter Document.isRecognized).map fun d => namespaceFor? build d.settings).dedup

/-- The files of a scope are in its namespace. -/
theorem namespace_of_mem_draftsOfScope {version : String} {target : Target Layout}
    {tables : List LocatedTable} {draft : Draft}
    (h : draft ∈ (draftsOfScope version target tables).1) :
    draft.file.namespaceName = target.namespaceName := by
  obtain ⟨n, layout⟩ := target
  rw [draftsOfScope] at h
  rcases List.mem_map.mp h with ⟨file, hfile, rfl⟩
  cases layout with
  | nested =>
      rcases List.mem_map.mp hfile with ⟨_, _, rfl⟩
      rfl
  | flat =>
      rcases List.mem_cons.mp hfile with rfl | hfile
      · rfl
      · rcases List.mem_singleton.mp hfile with rfl
        rfl

section Stages

variable (build : BuildSettings) (documents : List Document) (group : Option String)

/-- What outcomes lead to is what the documents lead to when each is read. -/
theorem filterMap_read {β : Type} (f : Outcome → Option β) :
    (documents.map (Document.read build)).filterMap f =
      documents.filterMap fun d => f (d.read build) := by
  rw [List.filterMap_map]
  rfl

/-- The tables that were read, with what they are written to. -/
def tablesOf : List (Target Layout × LocatedTable) :=
  (documents.map (Document.read build)).filterMap Outcome.table?

theorem filterMap_groupOf {β : Type} (f : Document → Option β) (space : β → String)
    (h : ∀ d b, f d = some b →
      d.isRecognized = true ∧ namespaceFor? build d.settings = some (space b)) :
    (groupOf build documents group).filterMap f =
      (documents.filterMap f).filter fun b => some (space b) == group := by
  -- What is read from a document is in the namespace of the document, so both sides choose alike.
  refine filterMap_filter_of_agree f _ _ (fun d _ b hb => ?_)
  rw [(h d b hb).1, (h d b hb).2, Bool.true_and]

theorem tablesOf_groupOf :
    tablesOf build (groupOf build documents group) =
      (tablesOf build documents).filter fun item => some item.1.namespaceName == group := by
  rw [tablesOf, tablesOf, filterMap_read, filterMap_read]
  exact filterMap_groupOf build documents group _ (fun item => item.1.namespaceName)
    fun _ _ h => namespace_of_table? h

/-- The scopes of a group are the scopes of the run that are in its namespace. -/
theorem scopesOf_groupOf :
    (scopesOf ((groupOf build documents group).map (Document.read build))).entries =
      (scopesOf (documents.map (Document.read build))).entries.filter
        fun e => some e.1.namespaceName == group := by
  have htables := tablesOf_groupOf build documents group
  rw [tablesOf, tablesOf] at htables
  rw [scopesOf, scopesOf, htables]
  exact Grouping.entries_ofList_filter (fun t : Target Layout => some t.namespaceName == group) _

/-- The drafts of a group are the drafts of the run that are in its namespace. -/
theorem draftsOf_groupOf (version : String) :
    (draftsOf version ((groupOf build documents group).map (Document.read build))).1 =
      (draftsOf version (documents.map (Document.read build))).1.filter
        fun draft => some draft.file.namespaceName == group := by
  rw [draftsOf, draftsOf, List.filter_append, scopesOf_groupOf]
  -- The drafts of the scopes come first, and then those of the manifests.
  refine congrArg₂ (· ++ ·) ?_ ?_
  · rw [List.flatMap_map, List.flatMap_map]
    refine flatMap_filter_of_agree _ _ _ (fun e _ draft hdraft => ?_)
    rw [namespace_of_mem_draftsOfScope hdraft]
  · rw [filterMap_read, filterMap_read]
    exact filterMap_groupOf build documents group _ (fun draft => draft.file.namespaceName)
      fun _ _ h => namespace_of_manifestDraft? h

end Stages

section Run

variable (build : BuildSettings) (documents : List Document)

theorem namespace_mem_namespacesOf {d : Document} (hd : d ∈ documents)
    (hr : d.isRecognized = true) :
    namespaceFor? build d.settings ∈ namespacesOf build documents := by
  rw [namespacesOf, List.mem_dedup, List.mem_map]
  exact ⟨d, List.mem_filter.mpr ⟨hd, hr⟩, rfl⟩

/-- A scope of the run is in the namespace of some document. -/
theorem namespace_of_mem_scopesOf {e : Target Layout × List LocatedTable}
    (he : e ∈ (scopesOf (documents.map (Document.read build))).entries) :
    some e.1.namespaceName ∈ namespacesOf build documents := by
  rw [scopesOf, filterMap_read] at he
  rcases Grouping.exists_of_mem_entries_ofList he with ⟨item, hitem, hkey⟩
  rcases List.mem_filterMap.mp hitem with ⟨d, hd, hread⟩
  rcases namespace_of_table? hread with ⟨hr, hn⟩
  rw [← hkey, ← hn]
  exact namespace_mem_namespacesOf build documents hd hr

/-- A draft of the run is in the namespace of some document. -/
theorem namespace_of_mem_draftsOf {version : String} {draft : Draft}
    (h : draft ∈ (draftsOf version (documents.map (Document.read build))).1) :
    some draft.file.namespaceName ∈ namespacesOf build documents := by
  rw [draftsOf] at h
  rcases List.mem_append.mp h with h | h
  · rcases List.mem_flatMap.mp h with ⟨_, hscope, hdraft⟩
    rcases List.mem_map.mp hscope with ⟨e, he, rfl⟩
    rw [namespace_of_mem_draftsOfScope hdraft]
    exact namespace_of_mem_scopesOf build documents he
  · rw [filterMap_read] at h
    rcases List.mem_filterMap.mp h with ⟨d, hd, hread⟩
    rcases namespace_of_manifestDraft? hread with ⟨hr, hn⟩
    rw [← hn]
    exact namespace_mem_namespacesOf build documents hd hr

/-- The reports of documents that failed. -/
def failuresOf : Diagnostics :=
  documents.filterMap fun d => (d.read build).diagnostic?

/-- The reports of clashes between symbols. -/
def symbolClashesOf : Diagnostics :=
  (scopesOf (documents.map (Document.read build))).entries.flatMap fun e =>
    (draftsOfScope build.languageVersionOrDefault e.1 e.2).2

/-- The reports of clashes between files. -/
def fileClashesOf : Diagnostics :=
  (droppedDrafts []
    (draftsOf build.languageVersionOrDefault (documents.map (Document.read build))).1).map
      Draft.clash

theorem warnings_draftsOf (version : String) (outcomes : List Outcome) :
    (draftsOf version outcomes).2 =
      (scopesOf outcomes).entries.flatMap fun e => (draftsOfScope version e.1 e.2).2 := by
  simp only [draftsOf, List.flatMap_map]

/-- The files of a run are the drafts that keep their names, and its reports come in three
    parts. -/
theorem ofDocuments_eq :
    Generation.ofDocuments build documents =
      { files := (keptDrafts [] (draftsOf build.languageVersionOrDefault
          (documents.map (Document.read build))).1).map (·.file)
        diagnostics := failuresOf build documents ++ symbolClashesOf build documents ++
          fileClashesOf build documents } := by
  simp only [Generation.ofDocuments, ofDrafts_eq]
  rw [filterMap_read, warnings_draftsOf]
  rfl

theorem failuresOf_perm :
    (failuresOf build documents).Perm ((namespacesOf build documents).flatMap fun group =>
      failuresOf build (groupOf build documents group)) := by
  -- Documents of no known kind report nothing, and they are in no group.
  have hrecognized : failuresOf build documents =
      failuresOf build (documents.filter Document.isRecognized) := by
    rw [failuresOf, failuresOf, filterMap_filter_of_agree _ _ (fun _ => true)
      (fun d _ _ h => isRecognized_of_diagnostic? h)]
    exact (List.filter_eq_self.mpr fun _ _ => rfl).symm
  have hparts := perm_flatMap_filter (fun d => namespaceFor? build d.settings)
    (namespacesOf build documents) (List.nodup_dedup _) (documents.filter Document.isRecognized)
    (fun d hd => namespace_mem_namespacesOf build documents (List.mem_filter.mp hd).1
      (List.mem_filter.mp hd).2)
  rw [hrecognized]
  -- What a permutation leads to is a permutation of what the list leads to.
  have hfailures := hparts.filterMap fun d => (d.read build).diagnostic?
  rw [List.filterMap_flatMap] at hfailures
  refine hfailures.trans (List.Perm.of_eq (List.flatMap_congr (fun group _ => ?_)))
  rw [failuresOf, groupOf, List.filter_filter]
  simp only [Bool.and_comm]

theorem symbolClashesOf_perm :
    (symbolClashesOf build documents).Perm ((namespacesOf build documents).flatMap fun group =>
      symbolClashesOf build (groupOf build documents group)) := by
  have hparts := perm_flatMap_filter
    (fun e : Target Layout × List LocatedTable => some e.1.namespaceName)
    (namespacesOf build documents) (List.nodup_dedup _) _
    (fun _ he => namespace_of_mem_scopesOf build documents he)
  -- The scopes of the run are those of its groups, and each reports its own clashes.
  have hclashes := hparts.flatMap_right fun e =>
    (draftsOfScope build.languageVersionOrDefault e.1 e.2).2
  rw [List.flatMap_assoc] at hclashes
  refine hclashes.trans (List.Perm.of_eq (List.flatMap_congr (fun group _ => ?_)))
  rw [symbolClashesOf, scopesOf_groupOf]

/-- The drafts that a group drops are those of its namespace that the run drops. -/
theorem fileClashesOf_groupOf (group : Option String) :
    fileClashesOf build (groupOf build documents group) =
      ((droppedDrafts [] (draftsOf build.languageVersionOrDefault
        (documents.map (Document.read build))).1).filter
          fun draft => some draft.file.namespaceName == group).map Draft.clash := by
  rw [fileClashesOf, draftsOf_groupOf,
    droppedDrafts_filter (fun n => some n == group), List.filter_nil]

theorem fileClashesOf_perm :
    (fileClashesOf build documents).Perm ((namespacesOf build documents).flatMap fun group =>
      fileClashesOf build (groupOf build documents group)) := by
  have hparts := perm_flatMap_filter (fun draft : Draft => some draft.file.namespaceName)
    (namespacesOf build documents) (List.nodup_dedup _)
    (droppedDrafts [] (draftsOf build.languageVersionOrDefault
      (documents.map (Document.read build))).1)
    (fun _ hdraft => namespace_of_mem_draftsOf build documents
      (mem_of_mem_droppedDrafts hdraft))
  -- A draft is dropped in favour of one of its own namespace, so it is dropped in its group.
  have hclashes := hparts.map Draft.clash
  rw [List.map_flatMap] at hclashes
  refine hclashes.trans (List.Perm.of_eq (List.flatMap_congr (fun group _ => ?_)))
  rw [fileClashesOf_groupOf]

/-- A run is made of the runs over its groups: each namespace has the files of its group, in the
    same order, and the reports are those of all groups. -/
theorem namespaces_independent :
    (∀ n : String, (Generation.ofDocuments build documents).files.filter
        (fun file => file.namespaceName == n) =
      (Generation.ofDocuments build (groupOf build documents (some n))).files) ∧
    (Generation.ofDocuments build documents).diagnostics.Perm
      ((namespacesOf build documents).flatMap fun group =>
        (Generation.ofDocuments build (groupOf build documents group)).diagnostics) := by
  refine ⟨fun n => ?_, ?_⟩
  -- The files of a namespace: drafts of other namespaces take no names from it.
  · rw [ofDocuments_eq, ofDocuments_eq, draftsOf_groupOf, List.filter_map]
    have hkept := keptDrafts_filter (fun m => some m == some n)
      (draftsOf build.languageVersionOrDefault (documents.map (Document.read build))).1 []
    rw [List.filter_nil] at hkept
    rw [← hkept]
    rfl
  -- The reports: each of the three parts is regrouped by itself, and then the parts are joined.
  · simp only [ofDocuments_eq]
    have hstages := ((failuresOf_perm build documents).append
      (symbolClashesOf_perm build documents)).append (fileClashesOf_perm build documents)
    refine hstages.trans (((List.flatMap_append_perm _ _ _).append_right _).trans ?_)
    exact List.flatMap_append_perm _ _ _

end Run

end PackageSymbols

import Mathlib.Data.List.Nodup
import PackageSymbols.Generation

/-!
# Names of Files

A run adds its drafts one by one, and a draft whose name is taken leaves no file
but a warning. Which drafts keep their names depends on names alone, so the run
splits into two lists of drafts: those that keep their names and those that are
dropped. `ofDrafts_eq` says that the files of a run are those of the one list
and its last diagnostics the clashes of the other.

Whether a draft keeps its name can be told from its place: it does if no draft
before it has its title. So the first draft of each title keeps it, no two files
share a title, and every file is found by its own.

Names in different namespaces never meet. This is why both lists, cut down to
some namespaces, are the lists of the drafts cut down in the same way.

## Main definitions

* `File.title`, `Draft.title`: The name of a file with its namespace.
* `keptDrafts`, `droppedDrafts`: The drafts that keep their names, and the others.
* `firstOfTitle`, `laterOfTitle`: The drafts that ought to, and the others.

## Theorems

* `ofDrafts_eq`: Sorting out clashes splits the drafts.
* `keptDrafts_eq`, `droppedDrafts_eq`: The first draft of a title keeps it.
* `nodup_keptDrafts`: No two of those that keep their names share a title.
* `droppedDrafts_eq_nil_iff`, `keptDrafts_eq_self`: When all keep their names.
* `file?_of_nodup`: Each file is found by its title.
* `keptDrafts_filter`, `droppedDrafts_filter`: Clashes stay inside a namespace.
-/

namespace PackageSymbols

open Source

/-- The namespace and the name of a file. -/
def Source.File.title (file : File) : String × String :=
  (file.namespaceName, file.name)

/-- The namespace and the name of the file of a draft. -/
def Draft.title (draft : Draft) : String × String :=
  draft.file.title

/-- The drafts whose name nobody has before them, given the names that are taken. -/
def keptDrafts (taken : List (String × String)) : List Draft → List Draft
  | [] => []
  | d :: ds =>
      if d.title ∈ taken then keptDrafts taken ds else d :: keptDrafts (taken ++ [d.title]) ds

/-- The drafts whose name somebody has before them, given the names that are taken. -/
def droppedDrafts (taken : List (String × String)) : List Draft → List Draft
  | [] => []
  | d :: ds =>
      if d.title ∈ taken then d :: droppedDrafts taken ds else droppedDrafts (taken ++ [d.title]) ds

theorem any_isNamed_iff (files : List File) (file : File) :
    files.any (Generation.isNamed file.namespaceName file.name) = true ↔
      file.title ∈ files.map File.title := by
  rw [List.any_eq_true, List.mem_map]
  simp only [Generation.isNamed, Bool.and_eq_true, beq_iff_eq, File.title, Prod.mk.injEq]

theorem foldl_add (drafts : List Draft) : ∀ g : Generation,
    drafts.foldl Generation.add g =
      { files := g.files ++ (keptDrafts (g.files.map File.title) drafts).map (·.file)
        diagnostics := g.diagnostics ++
          (droppedDrafts (g.files.map File.title) drafts).map Draft.clash } := by
  induction drafts with
  | nil =>
      intro g
      rw [List.foldl_nil, keptDrafts, droppedDrafts, List.map_nil, List.map_nil, List.append_nil,
        List.append_nil]
  | cons d ds ih =>
      intro g
      rw [List.foldl_cons, ih, keptDrafts, droppedDrafts]
      by_cases h : d.title ∈ g.files.map File.title
      -- The name is taken: nothing but a report is added.
      · have hadd : g.add d = { g with diagnostics := g.diagnostics.report d.clash } := by
          rw [Generation.add, if_pos ((any_isNamed_iff g.files d.file).mpr h)]
        rw [hadd, if_pos h, if_pos h, List.map_cons, Diagnostics.report, List.append_assoc,
          List.singleton_append]
      -- The name is free: the file is added, and its name is taken from here on.
      · have hadd : g.add d = { g with files := g.files ++ [d.file] } := by
          rw [Generation.add, if_neg fun hn => h ((any_isNamed_iff g.files d.file).mp hn)]
        rw [hadd, if_neg h, if_neg h, List.map_cons, List.map_append, List.map_singleton,
          List.append_assoc, List.singleton_append]
        rfl

/-- Sorting out clashes of names keeps some drafts and reports the others. -/
theorem ofDrafts_eq (diagnostics : Diagnostics) (drafts : List Draft) :
    Generation.ofDrafts diagnostics drafts =
      { files := (keptDrafts [] drafts).map (·.file)
        diagnostics := diagnostics ++ (droppedDrafts [] drafts).map Draft.clash } := by
  rw [Generation.ofDrafts, foldl_add, List.map_nil, List.nil_append]

section Order

/-- Whether a numbered draft has a title that an earlier one has. -/
def isTaken (drafts : List Draft) (draft : Draft × Nat) : Bool :=
  decide (draft.1.title ∈ (drafts.take draft.2).map Draft.title)

/-- The drafts whose title no earlier one has, in their order. -/
def firstOfTitle (drafts : List Draft) : List Draft :=
  (drafts.zipIdx.filter fun d => !isTaken drafts d).map Prod.fst

/-- The drafts whose title an earlier one has, in their order. -/
def laterOfTitle (drafts : List Draft) : List Draft :=
  (drafts.zipIdx.filter (isTaken drafts)).map Prod.fst

-- The drafts before those of the induction are the ones that took the names.
theorem split_of_before (drafts : List Draft) : ∀ (before : List Draft)
    (taken : List (String × String)), (∀ t, t ∈ taken ↔ t ∈ before.map Draft.title) →
      keptDrafts taken drafts = ((drafts.zipIdx before.length).filter fun d =>
        !isTaken (before ++ drafts) d).map Prod.fst ∧
      droppedDrafts taken drafts = ((drafts.zipIdx before.length).filter
        (isTaken (before ++ drafts))).map Prod.fst := by
  induction drafts with
  | nil => exact fun _ _ _ => ⟨rfl, rfl⟩
  | cons d ds ih =>
      intro before taken htaken
      have hsplit : before ++ d :: ds = (before ++ [d]) ++ ds := by
        rw [List.append_assoc, List.singleton_append]
      have hlength : before.length + 1 = (before ++ [d]).length := by
        rw [List.length_append, List.length_singleton]
      have hhead : isTaken (before ++ d :: ds) (d, before.length) = decide (d.title ∈ taken) := by
        rw [isTaken, List.take_left, decide_eq_decide, htaken]
      rw [keptDrafts, droppedDrafts, List.zipIdx_cons, List.filter_cons, List.filter_cons, hhead,
        hsplit, hlength]
      by_cases h : d.title ∈ taken
      -- The title is taken already, so the same titles are taken behind the draft.
      · have hsame : ∀ t, t ∈ taken ↔ t ∈ (before ++ [d]).map Draft.title := by
          intro t
          rw [List.map_append, List.mem_append, List.map_singleton, List.mem_singleton, ← htaken]
          exact ⟨Or.inl, fun ht => ht.elim id fun heq => heq ▸ h⟩
        rcases ih _ taken hsame with ⟨hkept, hdropped⟩
        rw [if_pos h, if_pos h, hkept, hdropped, decide_eq_true h]
        exact ⟨rfl, rfl⟩
      · have hmore : ∀ t, t ∈ taken ++ [d.title] ↔ t ∈ (before ++ [d]).map Draft.title := by
          intro t
          rw [List.map_append, List.mem_append, List.mem_append, htaken]
          rfl
        rcases ih _ (taken ++ [d.title]) hmore with ⟨hkept, hdropped⟩
        rw [if_neg h, if_neg h, hkept, hdropped, decide_eq_false h]
        exact ⟨rfl, rfl⟩

/-- The drafts that keep their names are the first of their titles. -/
theorem keptDrafts_eq (drafts : List Draft) : keptDrafts [] drafts = firstOfTitle drafts :=
  (split_of_before drafts [] [] fun _ => Iff.rfl).1

/-- The drafts that are dropped are the others. -/
theorem droppedDrafts_eq (drafts : List Draft) : droppedDrafts [] drafts = laterOfTitle drafts :=
  (split_of_before drafts [] [] fun _ => Iff.rfl).2

theorem nodup_keptDrafts (drafts : List Draft) : ∀ taken : List (String × String),
    ((keptDrafts taken drafts).map Draft.title).Nodup ∧
      ∀ d ∈ keptDrafts taken drafts, d.title ∉ taken := by
  -- What was taken grows on the way, so the claim is made for all that may be taken before.
  induction drafts with
  | nil => exact fun _ => ⟨List.nodup_nil, fun _ h => absurd h List.not_mem_nil⟩
  | cons d ds ih =>
      intro taken
      rw [keptDrafts]
      by_cases h : d.title ∈ taken
      · rw [if_pos h]
        exact ih taken
      · rcases ih (taken ++ [d.title]) with ⟨hnodup, hfree⟩
        rw [if_neg h, List.map_cons, List.nodup_cons]
        refine ⟨⟨?_, hnodup⟩, ?_⟩
        · intro hmem
          rcases List.mem_map.mp hmem with ⟨e, he, htitle⟩
          exact hfree e he (List.mem_append_right _ (List.mem_singleton.mpr htitle))
        · intro e he
          rcases List.mem_cons.mp he with rfl | he
          · exact h
          · exact fun hmem => hfree e he (List.mem_append_left _ hmem)

/-- Nothing is dropped exactly when no title comes twice and none is taken before. -/
theorem droppedDrafts_eq_nil_iff (drafts : List Draft) : ∀ taken : List (String × String),
    droppedDrafts taken drafts = [] ↔
      (drafts.map Draft.title).Nodup ∧ ∀ d ∈ drafts, d.title ∉ taken := by
  induction drafts with
  | nil =>
      exact fun _ => ⟨fun _ => ⟨List.nodup_nil, fun _ h => absurd h List.not_mem_nil⟩, fun _ => rfl⟩
  | cons d ds ih =>
      intro taken
      rw [droppedDrafts, List.map_cons, List.nodup_cons, List.forall_mem_cons]
      by_cases h : d.title ∈ taken
      · rw [if_pos h]
        exact ⟨fun hnil => absurd hnil (List.cons_ne_nil _ _), fun hall => absurd h hall.2.1⟩
      · rw [if_neg h, ih]
        -- Behind the draft its title is taken, so no other may have it.
        have hfree : (∀ e ∈ ds, e.title ∉ taken ++ [d.title]) ↔
            d.title ∉ ds.map Draft.title ∧ ∀ e ∈ ds, e.title ∉ taken := by
          simp only [List.mem_append, List.mem_singleton, not_or, List.mem_map, not_exists, not_and]
          exact ⟨fun hall => ⟨fun e he => (hall e he).2, fun e he => (hall e he).1⟩,
            fun hall e he => ⟨hall.2 e he, hall.1 e he⟩⟩
        rw [hfree]
        exact ⟨fun hall => ⟨⟨hall.2.1, hall.1⟩, h, hall.2.2⟩,
          fun hall => ⟨hall.1.2, hall.1.1, hall.2.2⟩⟩

/-- If nothing is dropped, everything is kept. -/
theorem keptDrafts_eq_self {drafts : List Draft} : ∀ {taken : List (String × String)},
    droppedDrafts taken drafts = [] → keptDrafts taken drafts = drafts := by
  induction drafts with
  | nil => exact fun _ => rfl
  | cons d ds ih =>
      intro taken hnone
      rw [droppedDrafts] at hnone
      by_cases h : d.title ∈ taken
      · rw [if_pos h] at hnone
        exact absurd hnone (List.cons_ne_nil _ _)
      · rw [if_neg h] at hnone
        rw [keptDrafts, if_neg h, ih hnone]

theorem mem_of_mem_keptDrafts {drafts : List Draft} {d : Draft} (h : d ∈ keptDrafts [] drafts) :
    d ∈ drafts := by
  rw [keptDrafts_eq, firstOfTitle] at h
  rcases List.mem_map.mp h with ⟨numbered, hmem, rfl⟩
  exact List.fst_mem_of_mem_zipIdx (List.mem_filter.mp hmem).1

theorem mem_of_mem_droppedDrafts {drafts : List Draft} {d : Draft}
    (h : d ∈ droppedDrafts [] drafts) : d ∈ drafts := by
  rw [droppedDrafts_eq, laterOfTitle] at h
  rcases List.mem_map.mp h with ⟨numbered, hmem, rfl⟩
  exact List.fst_mem_of_mem_zipIdx (List.mem_filter.mp hmem).1

/-- Among files with titles of their own, each is found by its title. -/
theorem file?_of_nodup {g : Generation} (h : (g.files.map File.title).Nodup) {file : File}
    (hfile : file ∈ g.files) : g.file? file.namespaceName file.name = some file := by
  rw [Generation.file?]
  cases hfind : g.files.find? (Generation.isNamed file.namespaceName file.name) with
  | none =>
      have hno := List.find?_eq_none.mp hfind file hfile
      rw [Generation.isNamed, beq_self_eq_true, beq_self_eq_true] at hno
      exact absurd rfl hno
  | some found =>
      have hnamed := List.find?_some hfind
      rw [Generation.isNamed, Bool.and_eq_true, beq_iff_eq, beq_iff_eq] at hnamed
      have htitle : found.title = file.title := Prod.ext hnamed.1 hnamed.2
      rw [List.inj_on_of_nodup_map h (List.mem_of_find?_eq_some hfind) hfile htitle]

end Order

section Namespaces

variable (p : String → Bool)

theorem title_mem_filter {taken : List (String × String)} {d : Draft}
    (hp : p d.file.namespaceName = true) :
    d.title ∈ taken.filter (fun t => p t.1) ↔ d.title ∈ taken := by
  rw [List.mem_filter]
  exact ⟨fun h => h.1, fun h => ⟨h, hp⟩⟩

theorem filter_taken_append (taken : List (String × String)) (d : Draft) :
    (taken ++ [d.title]).filter (fun t => p t.1) =
      taken.filter (fun t => p t.1) ++ if p d.file.namespaceName then [d.title] else [] := by
  rw [List.filter_append, List.filter_cons, List.filter_nil]
  rfl

-- Both lists at once, since they decide on the same titles in the same way.
theorem drafts_filter (drafts : List Draft) : ∀ taken : List (String × String),
    (keptDrafts taken drafts).filter (fun d => p d.file.namespaceName) =
      keptDrafts (taken.filter fun t => p t.1)
        (drafts.filter fun d => p d.file.namespaceName) ∧
    (droppedDrafts taken drafts).filter (fun d => p d.file.namespaceName) =
      droppedDrafts (taken.filter fun t => p t.1)
        (drafts.filter fun d => p d.file.namespaceName) := by
  induction drafts with
  | nil => exact fun _ => ⟨rfl, rfl⟩
  | cons d ds ih =>
      intro taken
      rcases ih taken with ⟨hkept, hdropped⟩
      rcases ih (taken ++ [d.title]) with ⟨hkept', hdropped'⟩
      rw [filter_taken_append] at hkept' hdropped'
      rw [keptDrafts, droppedDrafts, List.filter_cons]
      by_cases hp : p d.file.namespaceName = true
      -- A draft of these namespaces finds the same names taken, since titles carry the namespace.
      · rw [if_pos hp] at hkept' hdropped'
        rw [if_pos hp, keptDrafts, droppedDrafts]
        by_cases h : d.title ∈ taken
        · have h' := (title_mem_filter p hp).mpr h
          rw [if_pos h, if_pos h, if_pos h', if_pos h', List.filter_cons, if_pos hp, hdropped]
          exact ⟨hkept, rfl⟩
        · have h' := fun hn => h ((title_mem_filter p hp).mp hn)
          rw [if_neg h, if_neg h, if_neg h', if_neg h', List.filter_cons, if_pos hp, hkept']
          exact ⟨rfl, hdropped'⟩
      -- What a draft of other namespaces takes is not seen by these.
      · rw [if_neg hp, List.append_nil] at hkept' hdropped'
        rw [if_neg hp]
        by_cases h : d.title ∈ taken
        · rw [if_pos h, if_pos h, List.filter_cons, if_neg hp]
          exact ⟨hkept, hdropped⟩
        · rw [if_neg h, if_neg h, List.filter_cons, if_neg hp]
          exact ⟨hkept', hdropped'⟩

/-- Which drafts of some namespaces keep their names depends on those namespaces only. -/
theorem keptDrafts_filter (drafts : List Draft) (taken : List (String × String)) :
    (keptDrafts taken drafts).filter (fun d => p d.file.namespaceName) =
      keptDrafts (taken.filter fun t => p t.1)
        (drafts.filter fun d => p d.file.namespaceName) :=
  (drafts_filter p drafts taken).1

/-- Which drafts of some namespaces are dropped depends on those namespaces only. -/
theorem droppedDrafts_filter (drafts : List Draft) (taken : List (String × String)) :
    (droppedDrafts taken drafts).filter (fun d => p d.file.namespaceName) =
      droppedDrafts (taken.filter fun t => p t.1)
        (drafts.filter fun d => p d.file.namespaceName) :=
  (drafts_filter p drafts taken).2

end Namespaces

end PackageSymbols

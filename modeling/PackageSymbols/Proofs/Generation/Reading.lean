import PackageSymbols.Generation
import PackageSymbols.Proofs.CommandTable.RoundTrip

/-!
# What Becomes of a Document

All that a run knows of a document is the outcome of reading it. `Document.Reads`
lists the outcomes that a document can have, with what must hold of the document
for each of them, and `reads_read` says that its outcome is on this list. The
questions that a run asks of an outcome (which table or which file it holds, and
what it reports) are answered from the list, without a look at how documents are
read.

## Main definitions

* `Document.isRecognized`: Whether anything can be generated from a document.
* `Document.Reads`: The outcomes that a document can have.
* `Document.written`: The document of a table that was written.

## Theorems

* `Document.reads_read`: The outcome of a document is one that it can have.
* `Document.read_written`: What becomes of a table that was written.
* `namespace_of_table?`, `namespace_of_manifestDraft?`: What is read is in the
  namespace of its document.
* `source_of_table?`: What else a table has from its document.
* `isRecognized_of_diagnostic?`: Only recognized documents are reported.
* `eq_of_manifestDraft?`: Only a manifest leads to the file of one.
-/

namespace PackageSymbols

open Source

namespace Document

/-- Whether anything can be generated from the document. -/
def isRecognized (document : Document) : Bool :=
  document.kind?.isSome

theorem isRecognized_of_kind? {document : Document} {kind : Kind}
    (h : document.kind? = some kind) : document.isRecognized = true := by
  rw [isRecognized, h]
  rfl

/-- What can become of a document: it is passed over, or it lacks a namespace, or it is read as
    what it is or cannot be. -/
inductive Reads (build : BuildSettings) (document : Document) : Outcome → Prop where
  | skipped (hkind : document.kind? = none) : Reads build document .skipped
  | homeless (kind : Kind) (hkind : document.kind? = some kind)
      (hspace : namespaceFor? build document.settings = none) :
      Reads build document
        (document.failure (.missingNamespace (Path.fileName document.path)) none)
  | table (n : String) (hkind : document.kind? = some .commandTable)
      (hspace : namespaceFor? build document.settings = some n) (table : CommandTable)
      (hparse : CommandTable.parse (Path.stem document.path) document.contents = .ok table) :
      Reads build document
        (.table n document.settings.chosenFormat.layout { path := document.path, table := table })
  | unreadableTable (n : String) (hkind : document.kind? = some .commandTable)
      (hspace : namespaceFor? build document.settings = some n) (error : CommandTable.Error)
      (hparse : CommandTable.parse (Path.stem document.path) document.contents = .error error) :
      Reads build document
        (document.failure (.unreadableTable document.path error.message) (some error.position))
  | manifest (n : String) (hkind : document.kind? = some .manifest)
      (hspace : namespaceFor? build document.settings = some n) (values : Manifest)
      (hparse : Manifest.parse document.contents = .ok values) :
      Reads build document (.manifest n document.path values)
  | unreadableManifest (n : String) (hkind : document.kind? = some .manifest)
      (hspace : namespaceFor? build document.settings = some n) (error : Manifest.Error)
      (hparse : Manifest.parse document.contents = .error error) :
      Reads build document
        (document.failure (.unreadableManifest error.message) error.position?)

theorem reads_read (build : BuildSettings) (document : Document) :
    document.Reads build (document.read build) := by
  rw [read]
  cases hkind : document.kind? with
  -- Of no known kind: the document is passed over before its settings are looked at.
  | none => exact .skipped hkind
  | some kind =>
      cases hspace : namespaceFor? build document.settings with
      -- Without a namespace the contents do not count.
      | none => exact .homeless kind hkind hspace
      | some n =>
          cases kind with
          | commandTable =>
              simp only [readTable]
              cases hparse : CommandTable.parse (Path.stem document.path) document.contents with
              | ok table => exact .table n hkind hspace table hparse
              | error error => exact .unreadableTable n hkind hspace error hparse
          | manifest =>
              simp only [readManifest]
              cases hparse : Manifest.parse document.contents with
              | ok values => exact .manifest n hkind hspace values hparse
              | error error => exact .unreadableManifest n hkind hspace error hparse

/-- A document that holds the command table of GUIDs. -/
def written (path : String) (settings : DocumentSettings) (guids : List GuidSymbol) : Document where
  path := path
  contents := CommandTable.render .absent true [guids]
  settings := settings

/-- From a table that was written, what was written is read. -/
theorem read_written {build : BuildSettings} {path n : String} {settings : DocumentSettings}
    (hkind : Kind.ofFileName? (Path.fileName path) = some .commandTable)
    (hspace : namespaceFor? build settings = some n) (guids : List GuidSymbol) :
    (written path settings guids).read build =
      .table n settings.chosenFormat.layout
        { path := path, table := { name := Path.stem path, guids := guids } } := by
  have hlegal : Markup.Vocabulary.absent.IsLegal := trivial
  rcases CommandTable.exists_root_render Markup.readsContent_pieceReader (Path.stem path) hlegal
    true [guids] with ⟨root, hroot, htable⟩
  rw [Markup.parseWith_pieceReader] at hroot
  rw [List.flatten_singleton] at htable
  simp only [read, written, kind?, hkind, hspace, readTable, CommandTable.parse, hroot, htable]

end Document

section Outcomes

variable {build : BuildSettings} {d : Document} {version : String} {draft : Draft}

theorem namespace_of_table? {item : Target Layout × LocatedTable}
    (h : (d.read build).table? = some item) :
    d.isRecognized = true ∧ namespaceFor? build d.settings = some item.1.namespaceName := by
  have hreads := d.reads_read build
  generalize d.read build = outcome at hreads h
  cases hreads with
  | table n hkind hspace =>
      rw [Outcome.table?, Option.some.injEq] at h
      rw [← h]
      exact ⟨Document.isRecognized_of_kind? hkind, hspace⟩
  | _ => exact absurd h (by simp only [Document.failure, Outcome.table?, reduceCtorEq,
      not_false_eq_true])

/-- A table has the name that it is read under. -/
theorem CommandTable.name_of_parse {name text : String} {table : CommandTable}
    (h : CommandTable.parse name text = .ok table) : table.name = name := by
  rw [CommandTable.parse] at h
  cases hmarkup : Markup.parse text with
  | error e => simp only [hmarkup, reduceCtorEq] at h
  | ok root =>
      simp only [hmarkup] at h
      exact CommandTable.name_of_ofRoot h

/-- A table that was read comes from a command table in its layout, and is called by its stem. -/
theorem source_of_table? {item : Target Layout × LocatedTable}
    (h : (d.read build).table? = some item) :
    d.kind? = some .commandTable ∧ d.settings.chosenFormat.layout = item.1.layout ∧
      item.2.path = d.path ∧ item.2.table.name = Path.stem d.path := by
  have hreads := d.reads_read build
  generalize d.read build = outcome at hreads h
  cases hreads with
  | table n hkind hspace table hparse =>
      rw [Outcome.table?, Option.some.injEq] at h
      simp only [← h, hkind, CommandTable.name_of_parse hparse, and_self]
  | _ => exact absurd h (by simp only [Document.failure, Outcome.table?, reduceCtorEq,
      not_false_eq_true])

/-- Only a manifest that was read leads to the file of a manifest. -/
theorem eq_of_manifestDraft? {outcome : Outcome} (h : outcome.manifestDraft? version = some draft) :
    ∃ n path values, outcome = .manifest n path values ∧
      draft = { file := manifestFile n version values, origin := Location.ofPath path } := by
  cases outcome with
  | manifest n path values => exact ⟨n, path, values, rfl, (Option.some.inj h).symm⟩
  | _ => exact absurd h (by simp only [Outcome.manifestDraft?, reduceCtorEq, not_false_eq_true])

theorem namespace_of_manifestDraft? (h : (d.read build).manifestDraft? version = some draft) :
    d.isRecognized = true ∧ namespaceFor? build d.settings = some draft.file.namespaceName := by
  rcases eq_of_manifestDraft? h with ⟨n, path, values, hread, rfl⟩
  have hreads := d.reads_read build
  rw [hread] at hreads
  cases hreads with
  | manifest _ hkind hspace => exact ⟨Document.isRecognized_of_kind? hkind, hspace⟩

theorem isRecognized_of_diagnostic? {report : Diagnostic}
    (h : (d.read build).diagnostic? = some report) : d.isRecognized = true := by
  have hreads := d.reads_read build
  generalize d.read build = outcome at hreads h
  cases hreads with
  | homeless kind hkind => exact Document.isRecognized_of_kind? hkind
  | unreadableTable n hkind => exact Document.isRecognized_of_kind? hkind
  | unreadableManifest n hkind => exact Document.isRecognized_of_kind? hkind
  | _ => exact absurd h (by simp only [Outcome.diagnostic?, reduceCtorEq, not_false_eq_true])

end Outcomes

end PackageSymbols

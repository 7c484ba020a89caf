import PackageSymbols.Document

/-!
# Generation

A run takes the documents of a build and answers with files and diagnostics.
Each document is read by itself, so a document at fault costs no other its
output. The command tables that were read are gathered into scopes by namespace
and layout; each scope is merged and written, in the order in which the scopes
first came up, and the files of manifests follow. A file whose name an earlier
one in its namespace already has is dropped with a warning.

Diagnostics come in the order of these stages: documents at fault, clashes of
symbols scope by scope, clashes of files.

A dropped file is reported at one document: in the nested layout at the first of
the scope whose table leads to that name, and otherwise at the first of the
scope.

## Main definitions

* `Outcome`, `Document.read`: What became of a document.
* `Target`, `scopesOf`: What tables are gathered by, and the scopes of a run.
* `Draft`, `draftsOf`: The files of a run before clashes are sorted out.
* `Generation.add`, `Generation.ofDrafts`: The files that keep their names.
* `Generation.ofDocuments`: A run.
-/

namespace PackageSymbols

open Source

/-- What became of a document. -/
inductive Outcome where
  /-- It is no document that anything is generated from. -/
  | skipped
  /-- It cannot be read. -/
  | failed (diagnostic : Diagnostic)
  /-- A command table was read. -/
  | table (namespaceName : String) (layout : Layout) (located : LocatedTable)
  /-- A manifest was read. -/
  | manifest (namespaceName path : String) (values : Manifest)
deriving DecidableEq, Repr

namespace Document

/-- A document that failed. -/
def failure (document : Document) (problem : Problem) (position : Option Text.Position) :
    Outcome :=
  .failed { problem := problem, location := { path := some document.path, position := position } }

/-- Reads a command table that generates into a namespace. -/
def readTable (document : Document) (namespaceName : String) : Outcome :=
  match CommandTable.parse (Path.stem document.path) document.contents with
  | .ok table =>
      .table namespaceName document.settings.chosenFormat.layout
        { path := document.path, table := table }
  | .error error =>
      document.failure (.unreadableTable document.path error.message) (some error.position)

/-- Reads a manifest that generates into a namespace. -/
def readManifest (document : Document) (namespaceName : String) : Outcome :=
  match Manifest.parse document.contents with
  | .ok manifest => .manifest namespaceName document.path manifest
  | .error error => document.failure (.unreadableManifest error.message) error.position?

/-- Reads a document. A document without a namespace fails whatever it holds. -/
def read (build : BuildSettings) (document : Document) : Outcome :=
  match document.kind?, namespaceFor? build document.settings with
  | none, _ => .skipped
  | some _, none => document.failure (.missingNamespace (Path.fileName document.path)) none
  | some .commandTable, some namespaceName => document.readTable namespaceName
  | some .manifest, some namespaceName => document.readManifest namespaceName

end Document

/-- A namespace and a layout in which tables are written. -/
structure Target (L : Type) where
  /-- The namespace. -/
  namespaceName : String
  /-- The layout. -/
  layout : L
deriving DecidableEq, Repr

/-- A file and where it is reported if its name is taken. -/
structure Draft where
  /-- The file. -/
  file : File
  /-- The document it is reported at. -/
  origin : Location
deriving DecidableEq, Repr

namespace Outcome

/-- The diagnostic of a document that failed. -/
def diagnostic? : Outcome → Option Diagnostic
  | .failed diagnostic => some diagnostic
  | _ => none

/-- The table that was read, with what it is written to. -/
def table? : Outcome → Option (Target Layout × LocatedTable)
  | .table namespaceName layout located => some (⟨namespaceName, layout⟩, located)
  | _ => none

/-- The file of a manifest that was read. -/
def manifestDraft? (languageVersion : String) : Outcome → Option Draft
  | .manifest namespaceName path values =>
      some { file := manifestFile namespaceName languageVersion values
             origin := Location.ofPath path }
  | _ => none

end Outcome

/-- The tables that were read, gathered into scopes. -/
def scopesOf (outcomes : List Outcome) : Grouping (Target Layout) LocatedTable :=
  Grouping.ofList (outcomes.filterMap Outcome.table?)

/-- The first of the tables of a scope that leads to a file of the given name, in the layout that
    has a file for each table. -/
def tableOfFile? (layout : Layout) (tables : List LocatedTable) (name : String) :
    Option LocatedTable :=
  match layout with
  | .nested => tables.find? fun t => nestedFileName t.table.name == name
  | .flat => none

/-- Where a file of a scope is reported. -/
def reportedAt (layout : Layout) (tables : List LocatedTable) (file : File) : Location :=
  match tableOfFile? layout tables file.name <|> tables.head? with
  | some t => Location.ofPath t.path
  | none => Location.unknown

/-- The files of a scope, and the warnings about its symbols. -/
def draftsOfScope (languageVersion : String) (target : Target Layout)
    (tables : List LocatedTable) : List Draft × Diagnostics :=
  let (files, diagnostics) := target.layout.files target.namespaceName languageVersion tables
  (files.map fun file => { file := file, origin := reportedAt target.layout tables file },
   diagnostics)

/-- The files of a run before clashes of names are sorted out, and the warnings about symbols. -/
def draftsOf (languageVersion : String) (outcomes : List Outcome) : List Draft × Diagnostics :=
  let scopes := (scopesOf outcomes).entries.map fun entry =>
    draftsOfScope languageVersion entry.1 entry.2
  (scopes.flatMap (·.1) ++ outcomes.filterMap (Outcome.manifestDraft? languageVersion),
   scopes.flatMap (·.2))

/-- The warning about a file whose name is taken. -/
def Draft.clash (draft : Draft) : Diagnostic where
  problem := .takenFileName draft.file.namespaceName draft.file.name
  location := draft.origin

/-- The answer of a run. -/
structure Generation where
  /-- The files. -/
  files : List File
  /-- What is reported. -/
  diagnostics : Diagnostics
deriving DecidableEq, Repr

namespace Generation

/-- Whether a file has the given name in the given namespace. -/
def isNamed (namespaceName name : String) (file : File) : Bool :=
  file.namespaceName == namespaceName && file.name == name

/-- The file of a name in a namespace. -/
def file? (g : Generation) (namespaceName name : String) : Option File :=
  g.files.find? (isNamed namespaceName name)

/-- Adds a file, or reports it if its name is taken. -/
def add (g : Generation) (draft : Draft) : Generation :=
  if g.files.any (isNamed draft.file.namespaceName draft.file.name) then
    { g with diagnostics := g.diagnostics.report draft.clash }
  else { g with files := g.files ++ [draft.file] }

/-- The files that keep their names, reported on after other diagnostics. -/
def ofDrafts (diagnostics : Diagnostics) (drafts : List Draft) : Generation :=
  drafts.foldl add { files := [], diagnostics := diagnostics }

/-- Whether an error is reported. -/
def hasErrors (g : Generation) : Bool :=
  g.diagnostics.hasErrors

/-- The files and diagnostics that documents lead to. -/
def ofDocuments (build : BuildSettings) (documents : List Document) : Generation :=
  let outcomes := documents.map (Document.read build)
  let (drafts, warnings) := draftsOf build.languageVersionOrDefault outcomes
  ofDrafts (outcomes.filterMap Outcome.diagnostic? ++ warnings) drafts

end Generation

end PackageSymbols

import PackageSymbols.Text.Position

/-!
# Diagnostics

What goes wrong in a run is told to the user as diagnostics. A `Problem` is what
went wrong, with what has to be named; its code, its severity and its wording
follow from it. Codes are stable. A clash of symbols and a clash of files share
one, because both mean that something was declared twice.

A problem that a caller has words and a code of its own for is an `other`.

## Main definitions

* `Location`: What a diagnostic points at.
* `Severity`, `Problem`, `Diagnostic`: A problem and where it is.
* `Problem.code`, `Problem.severity`, `Problem.message`: What is said of it.
* `Diagnostics`: Diagnostics in the order they were reported.
-/

namespace PackageSymbols

/-- What a report points at: a document, a position in it, both or neither. -/
structure Location where
  /-- Path of the document. -/
  path : Option String
  /-- Position in the document. -/
  position : Option Text.Position
deriving DecidableEq, Repr, Inhabited

/-- A whole document. -/
def Location.ofPath (path : String) : Location :=
  { path := some path, position := none }

/-- No document and no position. -/
def Location.unknown : Location :=
  { path := none, position := none }

/-- The location as text, with a mark of its own when nothing is known. -/
def Location.display : Location → String
  | { path := some path, position := some position } => path ++ ":" ++ position.display
  | { path := some path, position := none } => path
  | { path := none, position := some position } => position.display
  | { path := none, position := none } => "<unknown>"

/-- Whether a problem stops the output of a document. -/
inductive Severity where
  | error
  | warning
deriving DecidableEq, Repr

/-- The word for a severity. -/
def Severity.word : Severity → String
  | .error => "error"
  | .warning => "warning"

/-- What went wrong. -/
inductive Problem where
  /-- No namespace is known for a document. -/
  | missingNamespace (fileName : String)
  /-- A manifest cannot be read. -/
  | unreadableManifest (reason : String)
  /-- A command table cannot be read. -/
  | unreadableTable (path reason : String)
  /-- A symbol is declared again with another value. -/
  | conflictingSymbol (name : String)
  /-- A file has the name of an earlier one in its namespace. -/
  | takenFileName (namespaceName fileName : String)
  /-- A problem of a caller's own. -/
  | other (code : String) (severity : Severity) (message : String)
deriving DecidableEq, Repr

namespace Problem

/-- The stable code of a problem. -/
def code : Problem → String
  | .missingNamespace _ => "CVSSG001"
  | .unreadableManifest _ => "CVSSG002"
  | .unreadableTable _ _ => "CVSSG003"
  | .conflictingSymbol _ => "CVSSG004"
  | .takenFileName _ _ => "CVSSG004"
  | .other code _ _ => code

/-- Documents that yield nothing are errors, declarations that are passed over are warnings. -/
def severity : Problem → Severity
  | .missingNamespace _ => .error
  | .unreadableManifest _ => .error
  | .unreadableTable _ _ => .error
  | .conflictingSymbol _ => .warning
  | .takenFileName _ _ => .warning
  | .other _ severity _ => severity

/-- The words for a problem. -/
def message : Problem → String
  | .missingNamespace fileName =>
      "could not determine the namespace for '" ++ fileName ++
        "'; set the RootNamespace property or the Namespace metadata of the file"
  | .unreadableManifest reason => "the VSIX manifest is invalid: " ++ reason
  | .unreadableTable path reason =>
      "the command table '" ++ path ++ "' is invalid: " ++ reason
  | .conflictingSymbol name =>
      "the symbol '" ++ name ++
        "' is already defined with a different value; the first definition is used"
  | .takenFileName namespaceName fileName =>
      "the generated file '" ++ fileName ++ "' already exists in namespace '" ++ namespaceName ++
        "'; the output of this document is skipped"
  | .other _ _ message => message

end Problem

/-- A problem and where it is. -/
structure Diagnostic where
  /-- What went wrong. -/
  problem : Problem
  /-- Where it went wrong. -/
  location : Location
deriving DecidableEq, Repr

/-- Whether the diagnostic is an error. -/
def Diagnostic.isError (d : Diagnostic) : Bool :=
  d.problem.severity == .error

/-- The diagnostic as one line of text. -/
def Diagnostic.display (d : Diagnostic) : String :=
  d.location.display ++ ": " ++ d.problem.severity.word ++ " " ++ d.problem.code ++ ": " ++
    d.problem.message

/-- Diagnostics in the order they were reported. -/
abbrev Diagnostics := List Diagnostic

namespace Diagnostics

/-- The diagnostics after one more report. -/
def report (ds : Diagnostics) (d : Diagnostic) : Diagnostics :=
  ds ++ [d]

/-- How many of the diagnostics are errors. -/
def errorCount (ds : Diagnostics) : Nat :=
  ds.countP Diagnostic.isError

/-- How many of the diagnostics are warnings. -/
def warningCount (ds : Diagnostics) : Nat :=
  ds.countP fun d => !d.isError

/-- Whether an error is among the diagnostics. -/
def hasErrors (ds : Diagnostics) : Bool :=
  ds.any Diagnostic.isError

/-- The diagnostics that point at a document. -/
def forPath (ds : Diagnostics) (path : String) : Diagnostics :=
  ds.filter fun d => d.location.path == some path

end Diagnostics

end PackageSymbols

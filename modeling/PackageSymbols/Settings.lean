import PackageSymbols.Json.Record
import PackageSymbols.Source.File

/-!
# Settings

A build has a root namespace and a language version, and each document may have
a namespace of its own and choose a format. A value that is blank counts as not
given, but a value that is given is used as it is, with the blanks around it.
Formats are chosen by name, in letters of either case; every other name means
the default.

## Main definitions

* `BuildSettings`, `DocumentSettings`: The settings of a build and of a document.
* `BuildSettings.languageVersionOrDefault`: The language version that is used.
* `Format`, `Format.layout`: The formats, and the layout that each stands for.
* `namespaceFor?`: The namespace that a document generates into.
* `BuildSettings.ofJson`, `DocumentSettings.ofJson`: Settings read from JSON text.
-/

namespace PackageSymbols

/-- A value that is given and not blank. -/
def given (value : Option String) : Option String :=
  value.filter fun s => !Text.isBlankText s

/-- The settings of a build. -/
structure BuildSettings where
  /-- The namespace of documents that have none of their own. -/
  rootNamespace : Option String
  /-- The version of the language that is generated. -/
  languageVersion : Option String
deriving DecidableEq, Repr

/-- The language version when none is given. -/
def defaultLanguageVersion : String := "7.3"

/-- The language version that is used. -/
def BuildSettings.languageVersionOrDefault (build : BuildSettings) : String :=
  (given build.languageVersion).getD defaultLanguageVersion

/-- Reads the settings of a build from JSON text. -/
def BuildSettings.ofJson (text : String) : Except Json.Flaw BuildSettings := do
  let values ← Json.readRecord ["rootNamespace", "langVersion"] text
  return { rootNamespace := values[0]?.join, languageVersion := values[1]?.join }

/-- The settings of a document. -/
structure DocumentSettings where
  /-- The namespace of the document. -/
  ownNamespace : Option String
  /-- The name of a format. -/
  format : Option String
deriving DecidableEq, Repr

/-- Reads the settings of a document from JSON text. -/
def DocumentSettings.ofJson (text : String) : Except Json.Flaw DocumentSettings := do
  let values ← Json.readRecord ["namespace", "format"] text
  return { ownNamespace := values[0]?.join, format := values[1]?.join }

/-- How the symbols of a command table are written. -/
inductive Format where
  /-- A class for each GUID. -/
  | default
  /-- Two classes for all symbols, as the extension of that name has them. -/
  | vsixSynchronizer
deriving DecidableEq, Repr

/-- The name of a format. -/
def Format.name : Format → String
  | .default => "Default"
  | .vsixSynchronizer => "VsixSynchronizer"

/-- The format of a given name. -/
def Format.ofName (name : String) : Format :=
  if Text.sameLetters (Text.trim name) Format.vsixSynchronizer.name then .vsixSynchronizer
  else .default

/-- The layout that a format stands for. -/
def Format.layout : Format → Source.Layout
  | .default => .nested
  | .vsixSynchronizer => .flat

/-- The format that a document chooses. -/
def DocumentSettings.chosenFormat (settings : DocumentSettings) : Format :=
  Format.ofName (settings.format.getD "")

/-- The namespace that a document generates into: its own, or else that of the build. -/
def namespaceFor? (build : BuildSettings) (settings : DocumentSettings) : Option String :=
  given settings.ownNamespace <|> given build.rootNamespace

end PackageSymbols

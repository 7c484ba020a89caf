import PackageSymbols.Settings

/-!
# Documents of a Build

A document is known by its path, and what it is follows from the name of its
file: manifests have one fixed name, command tables have an extension, and
nothing is generated from anything else. A path may separate its parts in either
of two ways. The name without its extension is what a command table is called.

## Main definitions

* `Document`: A document as it is handed over.
* `Path.fileName`, `Path.stem`: The name of a file, and the name without
  extension.
* `Document.Kind`, `Document.Kind.ofFileName?`: What a document can be, and what
  one of a given name is.
-/

namespace PackageSymbols

namespace Path

/-- The characters after the last one that passes a test; all of them if none does. -/
def afterLast (separates : Char → Bool) (cs : List Char) : List Char :=
  (cs.reverse.takeWhile fun c => !separates c).reverse

/-- Whether a character separates the parts of a path. -/
def isSeparator (c : Char) : Bool :=
  c == '/' || c == '\\'

/-- The name of the file at the end of a path. -/
def fileName (path : String) : String :=
  String.ofList (afterLast isSeparator path.toList)

/-- The part of a name before its last dot, and the part after it, if there is a dot. -/
def splitExtension? (name : List Char) : Option (List Char × List Char) :=
  match name.reverse.dropWhile (· != '.') with
  | [] => none
  | _ :: front => some (front.reverse, afterLast (· == '.') name)

/-- The name of the file at the end of a path, without its extension. -/
def stem (path : String) : String :=
  let name := (fileName path).toList
  match splitExtension? name with
  | some (front, _) => String.ofList front
  | none => String.ofList name

end Path

/-- A document as it is handed over. -/
structure Document where
  /-- The path, as it is named in reports. -/
  path : String
  /-- The text. -/
  contents : String
  /-- What was chosen for this document. -/
  settings : DocumentSettings
deriving DecidableEq, Repr

namespace Document

/-- What a document can be. -/
inductive Kind where
  | commandTable
  | manifest
deriving DecidableEq, Repr

/-- The name of manifests. -/
def manifestFileName : String := "source.extension.vsixmanifest"

/-- The extension of command tables. -/
def commandTableExtension : String := "vsct"

/-- What a document is whose file has the given name. Letters of either case will do. -/
def Kind.ofFileName? (name : String) : Option Kind :=
  if Text.sameLetters name manifestFileName then some .manifest
  else
    match Path.splitExtension? name.toList with
    | some (_, extension) =>
        if Text.sameLetters (String.ofList extension) commandTableExtension then
          some .commandTable
        else none
    | none => none

/-- What the document is. -/
def kind? (document : Document) : Option Kind :=
  Kind.ofFileName? (Path.fileName document.path)

end Document

end PackageSymbols

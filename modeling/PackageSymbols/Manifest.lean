import PackageSymbols.Markup.Document
import PackageSymbols.Text.Digits

/-!
# Extension Manifests

A manifest describes an extension in six values, all below one `Metadata`
element: four are attributes of `Identity`, two are the trimmed texts of other
elements. Every value is required, and of those missing the first in the order
of `Entry` is reported. Only documents of version 2.0.0 are understood; the
version is compared as numbers, so leading zeros do not matter, but a version of
two or four numbers is another version.

## Main definitions

* `Manifest`: The six values.
* `Manifest.Entry`, `Manifest.Entry.path`: A required value, and where it is found.
* `Manifest.version?`: The numbers of a dotted version.
* `Manifest.ofRoot`, `Manifest.parse`: The readers of a manifest.
-/

namespace PackageSymbols

/-- The description of an extension. -/
structure Manifest where
  /-- What identifies the extension. -/
  id : String
  /-- The name shown to people. -/
  name : String
  /-- What the extension does. -/
  description : String
  /-- The default language. -/
  language : String
  /-- Who publishes the extension. -/
  author : String
  /-- The version of the extension. -/
  version : String
deriving DecidableEq, Repr

namespace Manifest

/-- A value that a manifest must have. -/
inductive Entry where
  | author
  | description
  | id
  | language
  | name
  | version
deriving DecidableEq, Repr

/-- Where a value is found below the `Metadata` element. -/
inductive Place where
  /-- The trimmed text of an element. -/
  | content (element : String)
  /-- An attribute of an element. -/
  | value (element attributeName : String)
deriving DecidableEq, Repr

/-- Where each value is found. -/
def Entry.place : Entry → Place
  | .author => .value "Identity" "Publisher"
  | .description => .content "Description"
  | .id => .value "Identity" "Id"
  | .language => .value "Identity" "Language"
  | .name => .content "DisplayName"
  | .version => .value "Identity" "Version"

/-- The place of a value as a path from the root. -/
def Entry.path (entry : Entry) : String :=
  "/PackageManifest/Metadata/" ++
    match entry.place with
    | .content element => element
    | .value element attributeName => element ++ "/@" ++ attributeName

/-- Why a document cannot be read as a manifest. -/
inductive Error where
  /-- The markup is at fault. -/
  | markup (error : Markup.Error)
  /-- The version is not the one understood. -/
  | unsupportedVersion (found : Option String)
  /-- A required value is missing. -/
  | missing (entry : Entry)
deriving DecidableEq, Repr

/-- Where in the document the error is, when it has a place. -/
def Error.position? : Error → Option Text.Position
  | .markup error => some error.position
  | _ => none

/-- The words for an error. -/
def Error.message : Error → String
  | .markup error => "could not parse the manifest: " ++ error.display
  | .unsupportedVersion _ => "only version 2.0.0 VSIX manifest files are supported"
  | .missing entry => "the manifest is missing the required node '" ++ entry.path ++ "'"

/-- The parts of a text between dots. -/
def splitDots : List Char → List (List Char)
  | [] => [[]]
  | c :: cs =>
      if c = '.' then [] :: splitDots cs
      else
        match splitDots cs with
        | [] => [[c]]
        | part :: parts => (c :: part) :: parts

/-- The number in one part of a version, which has to stay below 2 ^ 32. -/
def versionNumber? (part : List Char) : Option Nat :=
  (Text.ofDigits? 10 part).filter (· < UInt32.size)

/-- The numbers of a dotted version of two to four parts, with blanks around it or not. -/
def version? (text : String) : Option (List Nat) :=
  match (splitDots (Text.trimChars text.toList)).mapM versionNumber? with
  | some numbers => if 2 ≤ numbers.length ∧ numbers.length ≤ 4 then some numbers else none
  | none => none

/-- The version of manifests that is understood. -/
def understoodVersion : List Nat := [2, 0, 0]

/-- The version that the root of a manifest declares. A root of another name declares none. -/
def declaredVersion? (root : Markup.Element) : Option String :=
  if root.head.name = "PackageManifest" then root.valueOf? "Version" else none

/-- The value at a place below the `Metadata` element. -/
def Place.read? (metadata : Markup.Element) : Place → Option String
  | .content element => (metadata.firstNamed? element).map fun e => Text.trim e.textContent
  | .value element attributeName => (metadata.firstNamed? element).bind (·.valueOf? attributeName)

/-- Reads a required value. -/
def readEntry (metadata : Option Markup.Element) (entry : Entry) : Except Error String :=
  match metadata.bind entry.place.read? with
  | some value => .ok value
  | none => .error (.missing entry)

/-- Reads a manifest from the root of its document. -/
def ofRoot (root : Markup.Element) : Except Error Manifest :=
  let declared := declaredVersion? root
  if declared.bind version? = some understoodVersion then do
    let metadata := root.firstNamed? "Metadata"
    let author ← readEntry metadata .author
    let description ← readEntry metadata .description
    let id ← readEntry metadata .id
    let language ← readEntry metadata .language
    let name ← readEntry metadata .name
    let version ← readEntry metadata .version
    return { id, name, description, language, author, version }
  else .error (.unsupportedVersion declared)

/-- Reads a manifest from the text of its document. -/
def parse (text : String) : Except Error Manifest :=
  match Markup.parse text with
  | .ok root => ofRoot root
  | .error error => .error (.markup error)

end Manifest

end PackageSymbols

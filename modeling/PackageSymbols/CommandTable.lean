import PackageSymbols.CommandId
import PackageSymbols.Guid
import PackageSymbols.Markup.Document

/-!
# Command Tables

A command table declares symbols: GUIDs by name, and under each GUID command
identifiers by name. Its document has a root `CommandTable` with `Symbols`
sections, which hold `GuidSymbol` elements, which hold `IDSymbol` elements; each
symbol has its name and its literal as attributes. A document with another root
declares nothing. The first literal that cannot be read makes the whole document
invalid, a GUID being read before the identifiers under it.

## Main definitions

* `IdSymbol`, `GuidSymbol`, `CommandTable`: What a document declares.
* `LocatedTable`: A table with the path of its document.
* `CommandTable.Error`: Why a document cannot be read.
* `CommandTable.ofRoot`, `CommandTable.parse`: The readers of a table.
-/

namespace PackageSymbols

/-- A command identifier with its name. -/
structure IdSymbol where
  /-- The name as written. -/
  name : String
  /-- The identifier. -/
  value : CommandId
deriving DecidableEq, Repr

/-- The symbol as text. -/
def IdSymbol.display (id : IdSymbol) : String :=
  id.name ++ "=" ++ id.value.hex

/-- A GUID with its name and the identifiers under it. -/
structure GuidSymbol where
  /-- The name as written. -/
  name : String
  /-- The GUID. -/
  value : Guid
  /-- The identifiers declared under it, in order. -/
  ids : List IdSymbol
deriving DecidableEq, Repr

/-- The symbol and those under it as text. -/
def GuidSymbol.display (guid : GuidSymbol) : String :=
  guid.name ++ "=" ++ guid.value.hyphenated ++ " [" ++
    String.intercalate ", " (guid.ids.map IdSymbol.display) ++ "]"

/-- The symbols that a document declares. -/
structure CommandTable where
  /-- The name of the table. -/
  name : String
  /-- The GUIDs declared, in order. -/
  guids : List GuidSymbol
deriving DecidableEq, Repr

/-- All identifiers of the table, in order. -/
def CommandTable.ids (table : CommandTable) : List IdSymbol :=
  table.guids.flatMap (·.ids)

/-- Whether the table declares nothing. -/
def CommandTable.isEmpty (table : CommandTable) : Bool :=
  table.guids.isEmpty

/-- A command table with the path of its document. -/
structure LocatedTable where
  /-- The path of the document. -/
  path : String
  /-- What the document declares. -/
  table : CommandTable
deriving DecidableEq, Repr

namespace CommandTable

/-- Why a document cannot be read as a command table. -/
inductive Error where
  /-- The markup is at fault. -/
  | markup (error : Markup.Error)
  /-- The literal of a GUID is invalid. -/
  | guid (name : String) (position : Text.Position) (invalid : Guid.Invalid)
  /-- The literal of an identifier is invalid. -/
  | id (name : String) (position : Text.Position) (invalid : CommandId.Invalid)
deriving DecidableEq, Repr

/-- Where in the document the error is. -/
def Error.position : Error → Text.Position
  | .markup error => error.position
  | .guid _ position _ => position
  | .id _ position _ => position

/-- The words for an error. -/
def Error.message : Error → String
  | .markup error => "could not parse the command table: " ++ error.display
  | .guid name position invalid =>
      "invalid GUIDSymbol '" ++ name ++ "' at " ++ position.display ++ ": " ++ invalid.message
  | .id name position invalid =>
      "invalid IDSymbol '" ++ name ++ "' at " ++ position.display ++ ": " ++ invalid.message

/-- Reads the symbol that an `IDSymbol` element declares. -/
def readId (e : Markup.Element) : Except Error IdSymbol :=
  let name := e.valueOf "name"
  match CommandId.parse (e.valueOf "value") with
  | .ok value => .ok { name := name, value := value }
  | .error invalid => .error (.id name e.head.position invalid)

/-- Reads the symbols that a `GuidSymbol` element declares. -/
def readGuid (e : Markup.Element) : Except Error GuidSymbol :=
  let name := e.valueOf "name"
  match Guid.parse (e.valueOf "value") with
  | .ok value => do
      let ids ← (e.allNamed "IDSymbol").mapM readId
      return { name := name, value := value, ids := ids }
  | .error invalid => .error (.guid name e.head.position invalid)

/-- The elements of a document that declare GUIDs. -/
def guidElements (root : Markup.Element) : List Markup.Element :=
  if root.head.name = "CommandTable" then
    (root.allNamed "Symbols").flatMap fun symbols => symbols.allNamed "GuidSymbol"
  else []

/-- Reads the table of a given name from the root of its document. -/
def ofRoot (name : String) (root : Markup.Element) : Except Error CommandTable := do
  let guids ← (guidElements root).mapM readGuid
  return { name := name, guids := guids }

/-- Reads the table of a given name from the text of its document. -/
def parse (name : String) (text : String) : Except Error CommandTable :=
  match Markup.parse text with
  | .ok root => ofRoot name root
  | .error error => .error (.markup error)

end CommandTable

end PackageSymbols

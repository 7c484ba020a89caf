import PackageSymbols.CommandTable
import PackageSymbols.Grouping
import PackageSymbols.Identifier
import PackageSymbols.Merge

/-!
# Classes of Generated Constants

The tables that generate into one namespace in one layout are a scope, and what
they declare is merged together. GUIDs are merged over the whole scope in either
layout. Identifiers are merged over the whole scope in the flat layout, where
they all become members of one class; in the nested layout each GUID has a class
of its own inside the class of its table, and only identifiers under the same
GUID in the same class meet.

A class of the nested layout gathers the tables whose names lead to one
identifier, and is described by the name of the first of them. It lists a GUID
when one of its tables declares it with the value that was kept; declarations
with another value are left out together with the identifiers under them.

## Main definitions

* `guidsOf`, `idsOf`, `idsUnder`: The three merges.
* `FlatClasses`, `FlatClasses.ofTables`: A scope in the flat layout.
* `TableClass`, `TableClass.ofTables`: A scope in the nested layout.
-/

namespace PackageSymbols

/-- The name of a GUID in documentation: as written, without the word `guid` in front. -/
def Constant.title (guid : Constant Guid) : String :=
  Identifier.stripMarker guid.written

/-- The declaration that a GUID of a document is. -/
def declarationOfGuid (path : String) (guid : GuidSymbol) : Declaration Guid where
  written := guid.name
  key := Identifier.ofGuidName guid.name
  value := guid.value
  path := path

/-- The declaration that an identifier of a document is. -/
def declarationOfId (path : String) (id : IdSymbol) : Declaration CommandId where
  written := id.name
  key := Identifier.ofName id.name
  value := id.value
  path := path

/-- Merges the GUIDs of all tables. -/
def guidsOf (tables : List LocatedTable) : Merged Guid :=
  merge (tables.flatMap fun t => t.table.guids.map (declarationOfGuid t.path))

/-- Merges the identifiers of all tables, whatever GUID they are under. -/
def idsOf (tables : List LocatedTable) : Merged CommandId :=
  merge (tables.flatMap fun t => t.table.ids.map (declarationOfId t.path))

/-- A GUID symbol with the path of its document. -/
abbrev LocatedGuid := String × GuidSymbol

/-- Merges the identifiers under symbols of one GUID. -/
def idsUnder (guids : List LocatedGuid) : Merged CommandId :=
  merge (guids.flatMap fun g => g.2.ids.map (declarationOfId g.1))

/-- The two classes of a scope in the flat layout. -/
structure FlatClasses where
  /-- The GUIDs, in the order of their generated names. -/
  guids : List (Constant Guid)
  /-- The identifiers, in the order of their generated names. -/
  ids : List (Constant CommandId)
deriving DecidableEq, Repr

/-- The classes of tables in the flat layout; warnings about GUIDs come first. -/
def FlatClasses.ofTables (tables : List LocatedTable) : FlatClasses × Diagnostics :=
  let guids := guidsOf tables
  let ids := idsOf tables
  ({ guids := guids.constants, ids := ids.constants }, guids.diagnostics ++ ids.diagnostics)

/-- The class of a GUID with the identifiers under it. -/
structure GuidClass where
  /-- The GUID. -/
  guid : Constant Guid
  /-- The identifiers, in the order of their generated names. -/
  ids : List (Constant CommandId)
deriving DecidableEq, Repr

/-- The class of the tables whose names lead to one identifier. -/
structure TableClass where
  /-- The name of the class. -/
  name : String
  /-- The name of the first of the tables. -/
  tableName : String
  /-- The classes inside, in the order of their names. -/
  guids : List GuidClass
deriving DecidableEq, Repr

/-- Whether the class of a GUID comes before another, or either may. -/
def GuidClass.precedes (a b : GuidClass) : Bool :=
  decide (a.guid.name ≤ b.guid.name)

/-- Whether the class of a table comes before another, or either may. -/
def TableClass.precedes (a b : TableClass) : Bool :=
  decide (a.name ≤ b.name)

/-- The kept GUID that a symbol agrees with, if there is one. -/
def keptGuid? (kept : List (Constant Guid)) (guid : GuidSymbol) : Option (Constant Guid) :=
  (kept.find? fun k => k.name == Identifier.ofGuidName guid.name).filter fun k =>
    k.value == guid.value

/-- The symbols of tables that agree with a kept GUID, gathered under it. -/
def agreeing (kept : List (Constant Guid)) (tables : List LocatedTable) :
    Grouping (Constant Guid) LocatedGuid :=
  Grouping.ofList <| tables.flatMap fun t => t.table.guids.filterMap fun guid =>
    (keptGuid? kept guid).map fun k => (k, (t.path, guid))

/-- The class of a given name for tables, of which there is at least one. -/
def TableClass.ofMembers (kept : List (Constant Guid)) (name : String)
    (tables : List LocatedTable) : TableClass × Diagnostics :=
  let merged := (agreeing kept tables).entries.map fun entry => (entry.1, idsUnder entry.2)
  let classes := merged.map fun m => { guid := m.1, ids := m.2.constants : GuidClass }
  ({ name := name
     tableName := ((tables.head?).map (·.table.name)).getD ""
     guids := sortBy GuidClass.precedes classes },
   merged.flatMap (·.2.diagnostics))

/-- Tables gathered by the identifiers that their names lead to. -/
def tablesByIdentifier (tables : List LocatedTable) : Grouping String LocatedTable :=
  Grouping.ofList <| tables.map fun t => (Identifier.ofName t.table.name, t)

/-- The classes of tables in the nested layout, in the order of their names. Warnings about GUIDs
    come first, and then those of each class in the order in which the classes came up. -/
def TableClass.ofTables (tables : List LocatedTable) : List TableClass × Diagnostics :=
  let guids := guidsOf tables
  let classes := (tablesByIdentifier tables).entries.map fun entry =>
    TableClass.ofMembers guids.constants entry.1 entry.2
  (sortBy TableClass.precedes (classes.map (·.1)),
   guids.diagnostics ++ classes.flatMap (·.2))

end PackageSymbols

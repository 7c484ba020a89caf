import PackageSymbols.Classes
import PackageSymbols.Manifest
import PackageSymbols.Source.Outline
import PackageSymbols.Source.Quoting

/-!
# Generated Files

A generated file holds one class in one namespace. There are three kinds: the
class of a table in the nested layout, with a class for each of its GUIDs
inside; the two classes of a flat layout; and the class of a manifest, whose
constants carry the text of the manifest. `classFile` puts the members of a
class into the frame that all of them share.

## Main definitions

* `File`, `classFile`: A generated file, and one around the members of a class.
* `nestedFile`, `flatFiles`, `manifestFile`: The files of each kind.
* `nestedFileName`: The file that a table of the nested layout leads to.
* `Layout`, `Layout.files`: The two layouts, and the files of a scope in one.
-/

namespace PackageSymbols

namespace Source

/-- A generated file. -/
structure File where
  /-- The namespace of what it declares. -/
  namespaceName : String
  /-- Its name. -/
  name : String
  /-- Its text. -/
  content : String
deriving DecidableEq, Repr

/-- A line of documentation. -/
def summary (text : String) : Step :=
  .line ("/// <summary>" ++ text ++ "</summary>")

/-- A class with documentation around other steps. -/
def classSteps (documentation name : String) (members : List Step) : List Step :=
  summary documentation :: .opening ("internal sealed partial class " ++ name) ::
    (members ++ [.closing])

/-- A namespace around other steps. -/
def namespaceSteps (name : String) (members : List Step) : List Step :=
  .opening ("namespace " ++ name) :: (members ++ [.closing])

/-- A constant text, given as it stands inside the literal. -/
def textConstant (name quoted : String) : Step :=
  .line ("public const string " ++ name ++ " = \"" ++ quoted ++ "\";")

/-- A GUID that is made from a constant text. -/
def guidField (name source : String) : Step :=
  .line ("public static readonly System.Guid " ++ name ++ " = new System.Guid(" ++ source ++
    ");")

/-- The constant of an identifier. -/
def idConstant (id : Constant CommandId) : Step :=
  .line ("public const int " ++ id.name ++ " = " ++ id.value.expression ++ ";")

/-- The file of a given name that holds a class with documentation and members. -/
def classFile (namespaceName languageVersion name documentation className : String)
    (members : List Step) : File where
  namespaceName := namespaceName
  name := name
  content := render languageVersion
    (namespaceSteps namespaceName (classSteps documentation className members))

/-- The class of a GUID in the nested layout. -/
def guidClassSteps (c : GuidClass) : List Step :=
  classSteps ("Defines the \"" ++ remark c.guid.title ++ "\" GUIDSymbol and its IDSymbols.")
    c.guid.name
    (textConstant "GuidString" c.guid.value.hyphenated :: guidField "Guid" "GuidString" ::
      c.ids.map idConstant)

/-- The name of the file that a table of the nested layout leads to. -/
def nestedFileName (tableName : String) : String :=
  FileName.ofName (tableName ++ ".g.cs")

/-- The file of the class of a table in the nested layout. -/
def nestedFile (namespaceName languageVersion : String) (c : TableClass) : File :=
  classFile namespaceName languageVersion (nestedFileName c.tableName)
    ("Defines symbols from the " ++ remark c.tableName ++ ".vsct file.") c.name
    (c.guids.flatMap guidClassSteps)

/-- The constants of a GUID in the flat layout. -/
def flatGuidSteps (guid : Constant Guid) : List Step :=
  let source := guid.name ++ "String"
  [textConstant source guid.value.hyphenated, guidField guid.name source]

/-- The files of a flat layout: the GUIDs, then the identifiers. -/
def flatFiles (namespaceName languageVersion : String) (classes : FlatClasses) : List File :=
  [classFile namespaceName languageVersion "PackageGuids.g.cs"
     "Defines GUIDs from VSCT files." "PackageGuids" (classes.guids.flatMap flatGuidSteps),
   classFile namespaceName languageVersion "PackageIds.g.cs"
     "Defines IDs from VSCT files." "PackageIds" (classes.ids.map idConstant)]

/-- The constants of a manifest: documentation, name and value. -/
def manifestConstants (manifest : Manifest) : List (String × String × String) :=
  [("The author of the extension.", "Author", manifest.author),
   ("The description of the extension.", "Description", manifest.description),
   ("The extension identifier.", "Id", manifest.id),
   ("The default language for the extension.", "Language", manifest.language),
   ("The name of the extension.", "Name", manifest.name),
   ("The version of the extension.", "Version", manifest.version)]

/-- The constant of a value of a manifest with its documentation. -/
def manifestSteps (constant : String × String × String) : List Step :=
  [summary constant.1, textConstant constant.2.1 (literal constant.2.2)]

/-- The file of a manifest, with an empty line between the constants. -/
def manifestFile (namespaceName languageVersion : String) (manifest : Manifest) : File :=
  classFile namespaceName languageVersion "Vsix.g.cs"
    "Defines constants from the <c>source.extension.vsixmanifest</c> file." "Vsix"
    (((manifestConstants manifest).map manifestSteps).intersperse [.blank]).flatten

/-- How the symbols of a scope are laid out in files. -/
inductive Layout where
  /-- A file for each class of tables, with a class for each GUID inside. -/
  | nested
  /-- Two files for the whole scope. -/
  | flat
deriving DecidableEq, Repr

/-- The files that the tables of a scope lead to, and the warnings about their symbols. -/
def Layout.files (layout : Layout) (namespaceName languageVersion : String)
    (tables : List LocatedTable) : List File × Diagnostics :=
  match layout with
  | .nested =>
      let (classes, diagnostics) := TableClass.ofTables tables
      (classes.map (nestedFile namespaceName languageVersion), diagnostics)
  | .flat =>
      let (classes, diagnostics) := FlatClasses.ofTables tables
      (flatFiles namespaceName languageVersion classes, diagnostics)

end Source

end PackageSymbols

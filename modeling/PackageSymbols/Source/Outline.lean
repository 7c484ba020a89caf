import PackageSymbols.Source.LanguageVersion

/-!
# Outlines of Generated Code

A generated file is described as a list of steps: a line, an empty line, the
opening of a block under a header, the closing of a block. `linesAt` turns the
steps into lines, with the indentation that the blocks around them ask for, and
`render` makes the text of a file out of them. The depth is never written down
in an outline, so it cannot be wrong there. A closing step with no block open
stays at the margin.

Every file begins with a preamble. It says that the file was generated, and
turns nullable reference types on where the language version knows them.

## Main definitions

* `Step`: One step of an outline.
* `linesAt`: The lines of an outline at a depth.
* `preamble`: The steps that every file begins with.
* `render`: The text of a file.
-/

namespace PackageSymbols

namespace Source

/-- One step of an outline. -/
inductive Step where
  /-- A line of code. -/
  | line (text : String)
  /-- An empty line. -/
  | blank
  /-- A header and the beginning of a block. -/
  | opening (header : String)
  /-- The end of a block. -/
  | closing
deriving DecidableEq, Repr

/-- A line of code at a depth, indented by four spaces for each level. -/
def indented (depth : Nat) (text : String) : String :=
  String.ofList (List.replicate (4 * depth) ' ') ++ text

/-- The lines of an outline that begins at a depth. -/
def linesAt : (depth : Nat) → List Step → List String
  | _, [] => []
  | depth, .line text :: rest => indented depth text :: linesAt depth rest
  | depth, .blank :: rest => "" :: linesAt depth rest
  | depth, .opening header :: rest =>
      indented depth header :: indented depth "\x7b" :: linesAt (depth + 1) rest
  | depth, .closing :: rest => indented (depth - 1) "\x7d" :: linesAt (depth - 1) rest

/-- The steps that every file begins with. -/
def preamble (languageVersion : String) : List Step :=
  [.line "// <auto-generated>",
   .line "//     This code was generated by vsix-codegen.",
   .line "// </auto-generated>"] ++
  (if knowsNullable languageVersion then [.line "#nullable enable"] else []) ++
  [.blank]

/-- The text of lines, each with a line feed at its end. -/
def joinLines (lines : List String) : String :=
  String.join (lines.map fun line => line ++ "\n")

/-- The text of a file with the given outline after the preamble. -/
def render (languageVersion : String) (outline : List Step) : String :=
  joinLines (linesAt 0 (preamble languageVersion ++ outline))

end Source

end PackageSymbols

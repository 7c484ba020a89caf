import PackageSymbols.Markup.Piece
import PackageSymbols.Proofs.Literals
import PackageSymbols.Proofs.Scanning
import PackageSymbols.Proofs.Source.CodeLines

/-!
# Reading Generated Members Back

Generated code loses nothing of what was resolved: from the lines of a file
alone the classes, GUIDs and identifiers can be told again. `readItem?` tells
what one line declares, and `itemsIn` collects what the lines of a file declare,
each with the depth at which it stands. As the depths tell which class a
declaration is in, this is everything that a class was made from.

A constant is read the way a compiler reads it. The text of a GUID is its
canonical form. A hexadecimal constant denotes its own value, so alone it cannot
be negative; inside an unchecked cast it gives the bits of the word.

## Main definitions

* `between?`: What lies between two given ends of a text.
* `assignment?`: The two sides of an assignment in a given form.
* `Item`, `readItem?`: What a line declares.
* `itemsIn`: What the lines of a file declare, with depths.
* `declared`: What the lines of an outline declare.

## Theorems

* `readExpression?_expression`: The constant of an identifier is read back.
* `readItem?_classHeader`, `readItem?_guidText`, `readItem?_guidField`,
  `readItem?_id`: So is each line that declares something.
* `declared_classSteps`: What a class declares, from what its members declare.
-/

namespace PackageSymbols

open Markup

/-- Whether a text is made of the characters of identifiers. -/
def Identifier.IsName (cs : List Char) : Prop :=
  ∀ c ∈ cs, canContinue c = true

instance (cs : List Char) : Decidable (Identifier.IsName cs) :=
  List.decidableBAll (fun c => Identifier.canContinue c = true) cs

namespace Source

/-- What lies between two given ends of a text. -/
def between? (front behind cs : List Char) : Option (List Char) :=
  (dropStart? front cs).bind fun rest =>
    (dropStart? behind.reverse rest.reverse).map List.reverse

/-- The two sides of an assignment: a word after `front`, and what follows `link` after it, up to
    `behind`. -/
def assignment? (front link behind cs : List Char) : Option (String × List Char) :=
  (between? front behind cs).bind fun inner =>
    (dropStart? link (inner.dropWhile (· != ' '))).map fun value =>
      (String.ofList (inner.takeWhile (· != ' ')), value)

/-- The value of a constant expression: the bits of the word in an unchecked cast, and a value
    that is not negative without one. -/
def readExpression? (cs : List Char) : Option CommandId :=
  match between? "unchecked((int)".toList [')'] cs with
  | some bits => CommandId.ofHex? bits
  | none => (CommandId.ofHex? cs).filter (0 ≤ ·)

/-- What a line declares. -/
inductive Item where
  /-- A class. -/
  | opened (name : String)
  /-- The text of a GUID. -/
  | guidText (name : String) (value : Guid)
  /-- A GUID, made from a text of the given name. -/
  | guidField (name source : String)
  /-- An identifier. -/
  | id (name : String) (value : CommandId)
deriving DecidableEq, Repr

/-- What a line without indentation declares, if it declares something. -/
def readItem? (line : List Char) : Option Item :=
  match dropStart? "internal sealed partial class ".toList line with
  | some name => some (.opened (String.ofList name))
  | none =>
  match assignment? "public const string ".toList " = \"".toList "\";".toList line with
  | some (name, text) => (Guid.ofHyphenated? text).map fun value => .guidText name value
  | none =>
  match assignment? "public static readonly System.Guid ".toList " = new System.Guid(".toList
    ");".toList line with
  | some (name, source) => some (.guidField name (String.ofList source))
  | none =>
  match assignment? "public const int ".toList " = ".toList ";".toList line with
  | some (name, text) => (readExpression? text).map fun value => .id name value
  | none => none

/-- What lines declare, each with its depth. -/
def itemsIn (lines : List (List Char)) : List (Nat × Item) :=
  lines.filterMap fun line =>
    (readItem? (unindented line)).map fun item => (indentation line / 4, item)

section Parts

theorem dropStart?_append (front rest : List Char) :
    dropStart? front (front ++ rest) = some rest := by
  induction front with
  | nil => rfl
  | cons c front ih => rw [List.cons_append, dropStart?, if_pos rfl, ih]

theorem between?_append (front behind inner : List Char) :
    between? front behind (front ++ (inner ++ behind)) = some inner := by
  rw [between?, dropStart?_append, Option.bind_some, List.reverse_append, dropStart?_append,
    Option.map_some, List.reverse_reverse]

theorem ne_space_of_isName {name : List Char} (h : Identifier.IsName name) :
    ∀ c ∈ name, (c != ' ') = true := by
  intro c hc
  rw [bne_iff_ne]
  rintro rfl
  exact absurd (h ' ' hc) (by decide +kernel)

theorem toList_assignment (front name link value behind : String) :
    (front ++ name ++ link ++ value ++ behind).toList =
      front.toList ++ ((name.toList ++ (link.toList ++ value.toList)) ++ behind.toList) := by
  simp only [String.toList_append, List.append_assoc]

/-- Both sides of an assignment are read back. -/
theorem assignment?_append {front link behind : List Char} {name : String}
    (hname : Identifier.IsName name.toList) (hlink : link.head? = some ' ') (value : List Char) :
    assignment? front link behind (front ++ ((name.toList ++ (link ++ value)) ++ behind)) =
      some (name, value) := by
  have hword := ne_space_of_isName hname
  -- The link begins with the space that ends the name.
  rcases List.head?_eq_some_iff.mp hlink with ⟨link, rfl⟩
  have htake : (name.toList ++ ' ' :: link ++ value).takeWhile (· != ' ') = name.toList := by
    rw [List.append_assoc]
    exact takeWhile_append_cons hword rfl (link ++ value)
  have hdrop : (name.toList ++ ' ' :: link ++ value).dropWhile (· != ' ') =
      ' ' :: link ++ value := by
    rw [List.append_assoc]
    exact dropWhile_append_cons hword rfl (link ++ value)
  rw [assignment?, between?_append, Option.bind_some, ← List.append_assoc, hdrop,
    dropStart?_append, Option.map_some, htake, String.ofList_toList]

end Parts

section Lines

/-- The constant expression of an identifier is read back. -/
theorem readExpression?_expression (id : CommandId) :
    readExpression? id.expression.toList = some id := by
  rw [CommandId.expression]
  by_cases hneg : id < 0
  · have hchars : ("unchecked((int)" ++ id.hex ++ ")").toList =
        "unchecked((int)".toList ++ (id.hexChars ++ [')']) := by
      rw [String.toList_append, String.toList_append, CommandId.toList_hex, List.append_assoc]
      rfl
    rw [if_pos hneg, hchars, readExpression?, between?_append]
    exact CommandId.ofHex?_hexChars id
  -- Without a cast the text begins with a digit, and the value is not negative.
  · have hcast : between? "unchecked((int)".toList [')'] id.hexChars = none := by
      rw [CommandId.hexChars]
      rfl
    rw [if_neg hneg, CommandId.toList_hex, readExpression?, hcast]
    simp only [CommandId.ofHex?_hexChars, Option.filter_some]
    rw [if_pos (decide_eq_true (Int32.not_lt.mp hneg))]

theorem readItem?_classHeader (name : String) :
    readItem? ("internal sealed partial class " ++ name).toList = some (.opened name) := by
  rw [String.toList_append, readItem?, dropStart?_append]
  simp only [String.ofList_toList]

theorem readItem?_guidText {name : String} (hname : Identifier.IsName name.toList) (g : Guid) :
    readItem? ("public const string " ++ name ++ " = \"" ++ g.hyphenated ++ "\";").toList =
      some (.guidText name g) := by
  rw [toList_assignment]
  -- The words in front tell the kinds of lines apart; what follows does not matter.
  have hclass : ∀ rest, dropStart? "internal sealed partial class ".toList
      ("public const string ".toList ++ rest) = none := fun _ => rfl
  rw [readItem?, hclass, assignment?_append hname rfl, Guid.toList_hyphenated]
  simp only [Guid.ofHyphenated?_hyphenatedChars, Option.map_some]

theorem readItem?_guidField {name : String} (hname : Identifier.IsName name.toList)
    (source : String) :
    readItem? ("public static readonly System.Guid " ++ name ++ " = new System.Guid(" ++ source ++
      ");").toList = some (.guidField name source) := by
  rw [toList_assignment]
  have hclass : ∀ rest, dropStart? "internal sealed partial class ".toList
      ("public static readonly System.Guid ".toList ++ rest) = none := fun _ => rfl
  have htext : ∀ rest, assignment? "public const string ".toList " = \"".toList "\";".toList
      ("public static readonly System.Guid ".toList ++ rest) = none := fun _ => rfl
  rw [readItem?, hclass, htext, assignment?_append hname rfl]
  simp only [String.ofList_toList]

theorem readItem?_id {name : String} (hname : Identifier.IsName name.toList) (id : CommandId) :
    readItem? ("public const int " ++ name ++ " = " ++ id.expression ++ ";").toList =
      some (.id name id) := by
  rw [toList_assignment]
  have hclass : ∀ rest, dropStart? "internal sealed partial class ".toList
      ("public const int ".toList ++ rest) = none := fun _ => rfl
  have htext : ∀ rest, assignment? "public const string ".toList " = \"".toList "\";".toList
      ("public const int ".toList ++ rest) = none := fun _ => rfl
  have hfield : ∀ rest, assignment? "public static readonly System.Guid ".toList
      " = new System.Guid(".toList ");".toList ("public const int ".toList ++ rest) = none :=
    fun _ => rfl
  rw [readItem?, hclass, htext, hfield, assignment?_append hname rfl]
  simp only [readExpression?_expression, Option.map_some]

/-- A line that begins with none of the words of a declaration declares nothing. -/
theorem readItem?_eq_none {c : Char} (hi : c ≠ 'i') (hp : c ≠ 'p') (cs : List Char) :
    readItem? (c :: cs) = none := by
  -- Every kind of item begins with one of two letters.
  have hfront : ∀ d front, d ≠ c → dropStart? (d :: front) (c :: cs) = none := by
    intro d front hd
    rw [dropStart?, if_neg hd.symm]
  have hassignment : ∀ front link behind,
      assignment? ('p' :: front) link behind (c :: cs) = none := by
    intro front link behind
    rw [assignment?, between?, hfront 'p' front hp.symm]
    rfl
  have hclass : dropStart? "internal sealed partial class ".toList (c :: cs) = none :=
    hfront 'i' _ hi.symm
  have htext : assignment? "public const string ".toList " = \"".toList "\";".toList (c :: cs) =
      none := hassignment _ _ _
  have hfield : assignment? "public static readonly System.Guid ".toList
      " = new System.Guid(".toList ");".toList (c :: cs) = none := hassignment _ _ _
  have hid : assignment? "public const int ".toList " = ".toList ";".toList (c :: cs) = none :=
    hassignment _ _ _
  rw [readItem?, hclass, htext, hfield, hid]

end Lines

section Steps

/-- What the lines of an outline declare. -/
def declared (depth : Nat) (steps : List Step) : List (Nat × Item) :=
  itemsIn ((linesAt depth steps).map String.toList)

/-- What a line alone declares at a depth. -/
def itemAt (depth : Nat) (line : List Char) : List (Nat × Item) :=
  ((readItem? line).map fun item => (depth, item)).toList

theorem itemsIn_cons {text : String} (h : IsFlush text) (depth : Nat) (lines : List (List Char)) :
    itemsIn ((indented depth text).toList :: lines) =
      itemAt depth text.toList ++ itemsIn lines := by
  rw [itemsIn, List.filterMap_cons, unindented_indented h, indentation_indented h,
    Nat.mul_div_cancel_left depth (by decide), itemAt]
  cases readItem? text.toList with
  | none => rfl
  | some item => rfl

theorem declared_line {text : String} (h : IsFlush text) (depth : Nat) (rest : List Step) :
    declared depth (.line text :: rest) = itemAt depth text.toList ++ declared depth rest := by
  rw [declared, linesAt, List.map_cons, itemsIn_cons h, declared]

theorem declared_append {steps : List Step} (h : IsOutline steps) (depth : Nat)
    (more : List Step) :
    declared depth (steps ++ more) = declared depth steps ++ declared depth more := by
  rw [declared, h.linesAt_append, List.map_append, itemsIn, List.filterMap_append]
  rfl

theorem declared_flatMap {α : Type} {steps : α → List Step} {members : List α}
    (h : ∀ m ∈ members, IsOutline (steps m)) (depth : Nat) :
    declared depth (members.flatMap steps) = members.flatMap fun m => declared depth (steps m) := by
  induction members with
  | nil => rfl
  | cons m members ih =>
      rw [List.flatMap_cons, List.flatMap_cons, declared_append (h m List.mem_cons_self),
        ih fun m' hm' => h m' (List.mem_cons_of_mem m hm')]

theorem declared_block {inner : List Step} (hinner : IsOutline inner) {header : String}
    (hheader : IsFlush header) (depth : Nat) (rest : List Step) :
    declared depth (.opening header :: (inner ++ .closing :: rest)) =
      itemAt depth header.toList ++ (declared (depth + 1) inner ++ declared depth rest) := by
  have hopening : itemAt depth "\x7b".toList = [] := rfl
  have hclosing : itemAt depth "\x7d".toList = [] := rfl
  rw [declared, hinner.linesAt_block, List.map_cons, List.map_cons, List.map_append, List.map_cons,
    itemsIn_cons hheader, itemsIn_cons isFlush_opening, hopening, List.nil_append]
  -- The braces declare nothing, so what is left is what is inside and what follows.
  refine congrArg (itemAt depth header.toList ++ ·) ?_
  rw [itemsIn, List.filterMap_append]
  refine congrArg (declared (depth + 1) inner ++ ·) ?_
  refine (itemsIn_cons isFlush_closing depth _).trans ?_
  rw [hclosing, List.nil_append, declared]

theorem declared_summary (depth : Nat) (text : String) (rest : List Step) :
    declared depth (summary text :: rest) = declared depth rest := by
  have hnone : readItem? (remarkLine text).toList = none := by
    rw [toList_remarkLine]
    exact readItem?_eq_none (by decide) (by decide) _
  refine (declared_line (isFlush_remarkLine text) depth rest).trans ?_
  rw [itemAt, hnone]
  rfl

/-- A class declares itself, and one level deeper what its members declare. -/
theorem declared_classSteps {members : List Step} (h : IsOutline members) (depth : Nat)
    (documentation name : String) :
    declared depth (classSteps documentation name members) =
      (depth, .opened name) :: declared (depth + 1) members := by
  have hheader : IsFlush ("internal sealed partial class " ++ name) :=
    ⟨'i', _, by rw [String.toList_append]; rfl, by decide⟩
  rw [classSteps, declared_summary, declared_block h hheader, itemAt, readItem?_classHeader]
  exact congrArg _ (List.append_nil _)

/-- A namespace declares what is inside, one level deeper. -/
theorem declared_namespaceSteps {members : List Step} (h : IsOutline members) (depth : Nat)
    (name : String) :
    declared depth (namespaceSteps name members) = declared (depth + 1) members := by
  have hchars : ("namespace " ++ name).toList = 'n' :: ("amespace " ++ name).toList := by
    rw [String.toList_append, String.toList_append]
    rfl
  rw [namespaceSteps, declared_block h ⟨'n', _, hchars, by decide⟩, hchars, itemAt,
    readItem?_eq_none (by decide) (by decide)]
  exact List.append_nil _

theorem declared_textConstant {name : String} (hname : Identifier.IsName name.toList) (g : Guid)
    (depth : Nat) (rest : List Step) :
    declared depth (textConstant name g.hyphenated :: rest) =
      (depth, .guidText name g) :: declared depth rest := by
  rw [textConstant, declared_line ⟨'p', _, by simp only [String.toList_append]; rfl, by decide⟩,
    itemAt, readItem?_guidText hname]
  rfl

theorem declared_guidField {name : String} (hname : Identifier.IsName name.toList)
    (source : String) (depth : Nat) (rest : List Step) :
    declared depth (guidField name source :: rest) =
      (depth, .guidField name source) :: declared depth rest := by
  rw [guidField, declared_line ⟨'p', _, by simp only [String.toList_append]; rfl, by decide⟩,
    itemAt, readItem?_guidField hname]
  rfl

theorem declared_idConstants {ids : List (Constant CommandId)}
    (h : ∀ id ∈ ids, Identifier.IsName id.name.toList) (depth : Nat) :
    declared depth (ids.map idConstant) = ids.map fun id => (depth, .id id.name id.value) := by
  induction ids with
  | nil => rfl
  | cons id ids ih =>
      rw [List.map_cons, List.map_cons, idConstant,
        declared_line ⟨'p', _, by simp only [String.toList_append]; rfl, by decide⟩, itemAt,
        readItem?_id (h id List.mem_cons_self), ih fun i hi => h i (List.mem_cons_of_mem id hi)]
      rfl

end Steps

end Source

end PackageSymbols

import PackageSymbols.Manifest
import PackageSymbols.Proofs.Literals
import PackageSymbols.Proofs.Markup.Foreign
import PackageSymbols.Proofs.Markup.Positions

/-!
# Manifests Are Read Back

A manifest that is written as a document is read back as it was, whatever its
values are, in whichever order they are written, and whatever is added to the
document that is not of the vocabulary of manifests: elements that are called
like those of a manifest, but are in another namespace, are never taken for
them.

Only two values can be told wrong. The name and the description are texts of
elements, which are trimmed, so blanks at their ends would be lost.

The elements that a document holds of its own vocabulary are known from the way
it is written (`Vocabulary.Holds`), and only among those anything is found. Each
name is the name of one element only, so it does not matter which of them stands
first.

## Main definitions

* `Leaf`: An element with a text inside.
* `Manifest.leaves`: The elements that tell the values of a manifest.
* `Manifest.Arrangement`: A document with leaves, and with other things between
  them.
* `Manifest.Arrangement.Describes`: Documents of a manifest.
* `Manifest.IsMetadata`: An element that holds the leaves of a manifest.
* `Manifest.parseWith`: The reader of manifests on top of a given reader of events.

## Theorems

* `Manifest.ofRoot_moved`: What is read does not depend on positions.
* `Manifest.holds_rowChars`: A document holds the leaves that it is made of.
* `Manifest.IsMetadata.readEntry`: Each value of a manifest is read from its
  leaves.
* `Manifest.parseWith_text`, `Manifest.parse_text`: A manifest that is written is read
  back, by any reader of events that keeps to the grammars of content.
-/

namespace PackageSymbols

open Markup

namespace Manifest

section Positions

variable (f : Text.Position → Text.Position)

theorem read?_moved (metadata : Element) (place : Place) :
    place.read? (metadata.moved f) = place.read? metadata := by
  cases place with
  | content element =>
      rw [Place.read?, Element.firstNamed?_moved, Option.map_map, Place.read?]
      refine congrArg (Option.map · _) (funext fun e => ?_)
      exact congrArg Text.trim (Element.textContent_moved f e)
  | value element attributeName =>
      rw [Place.read?, Element.firstNamed?_moved, Option.bind_map]
      rfl

theorem readEntry_moved (metadata : Option Element) (entry : Entry) :
    readEntry (metadata.map (Element.moved f)) entry = readEntry metadata entry := by
  have hread : ∀ e : Element, entry.place.read? (e.moved f) = entry.place.read? e :=
    fun e => read?_moved f e entry.place
  rw [readEntry, Option.bind_map, readEntry]
  simp only [Function.comp_def, hread]

/-- What is read from a tree does not depend on positions. -/
theorem ofRoot_moved (root : Element) : ofRoot (root.moved f) = ofRoot root := by
  have hdeclared : declaredVersion? (root.moved f) = declaredVersion? root := rfl
  rw [ofRoot, hdeclared, Element.firstNamed?_moved]
  simp only [readEntry_moved]
  rfl

end Positions

section Writing

/-- An element with a text inside. -/
structure Leaf where
  /-- Its name. -/
  name : String
  /-- Its attributes. -/
  attributes : List (String × String)
  /-- The text. -/
  content : String
deriving DecidableEq, Repr

/-- Leaves, each behind other content, in front of more content. -/
def rowChars (v : Vocabulary) (asOne : Bool) : (leaves : List (String × Leaf)) → (last : String) →
    List Char
  | [], last => last.toList
  | (gap, leaf) :: rest, last =>
      gap.toList ++ (v.opening leaf.name leaf.attributes).around asOne (escape leaf.content.toList)
        (rowChars v asOne rest last)

/-- How the document of a manifest is arranged. -/
structure Arrangement where
  /-- How elements come to their namespace. -/
  vocabulary : Vocabulary
  /-- Whether elements with nothing inside are written as one tag. -/
  asOne : Bool
  /-- What is inside of the root in front of the metadata. -/
  before : String
  /-- What is inside of the metadata: leaves, each with what is in front of it. -/
  leaves : List (String × Leaf)
  /-- What is inside of the metadata behind the leaves. -/
  last : String
  /-- What is inside of the root behind the metadata. -/
  behind : String
deriving DecidableEq, Repr

/-- The text of a document. -/
def Arrangement.text (a : Arrangement) : String :=
  let leaves := rowChars a.vocabulary a.asOne a.leaves a.last
  let metadata := (a.vocabulary.opening "Metadata" []).around a.asOne leaves a.behind.toList
  let root := a.vocabulary.rootOpening "PackageManifest" [("Version", "2.0.0")]
  String.ofList (root.around a.asOne (a.before.toList ++ metadata) [])

/-- What the attributes of the identity say. -/
def identityAttributes (m : Manifest) : List (String × String) :=
  [("Id", m.id), ("Version", m.version), ("Language", m.language), ("Publisher", m.author)]

/-- The elements that tell the values of a manifest, four of them as given attributes. -/
def leaves (m : Manifest) (attributes : List (String × String)) : List Leaf :=
  [⟨"Identity", attributes, ""⟩, ⟨"DisplayName", [], m.name⟩, ⟨"Description", [], m.description⟩]

/-- Whether a document describes a manifest: its leaves are those of the manifest in any order, and
    all else in it is foreign to its vocabulary. -/
structure Arrangement.Describes (a : Arrangement) (m : Manifest) : Prop where
  /-- The root can declare the namespace. -/
  bindable : a.vocabulary.IsBindable
  /-- The leaves are those of the manifest. -/
  leaves : ∃ attributes, attributes.Perm m.identityAttributes ∧
    (a.leaves.map Prod.snd).Perm (m.leaves attributes)
  /-- What is between the leaves is foreign. -/
  gaps : ∀ gap ∈ a.leaves.map Prod.fst, a.vocabulary.IsForeign gap
  /-- So is what is behind them. -/
  last : a.vocabulary.IsForeign a.last
  /-- So is what is in front of the metadata. -/
  before : a.vocabulary.IsForeign a.before
  /-- So is what is behind it. -/
  behind : a.vocabulary.IsForeign a.behind

end Writing

section Meaning

/-- Whether a leaf can be written. -/
structure Leaf.IsWritable (leaf : Leaf) : Prop where
  /-- The name has no character of meaning in it. -/
  name : isPlainName leaf.name.toList = true
  /-- The names of the attributes can stand in one tag. -/
  attributes : Vocabulary.AreAttributes (leaf.attributes.map Prod.fst)

/-- The nodes of a text that may be empty. -/
def textNodes (content : String) : List Node :=
  if content = "" then [] else [.text content]

/-- The element of a leaf. -/
def Leaf.element (v : Vocabulary) (leaf : Leaf) : Element where
  head := v.head leaf.name leaf.attributes
  content := textNodes leaf.content

theorem isContent_textNodes (scope : Scope) (content : String) :
    IsContent scope (escape content.toList) (textNodes content) := by
  rw [textNodes]
  by_cases hcontent : content = ""
  · rw [if_pos hcontent, hcontent]
    exact .nil
  · have htext : IsContent scope (escape content.toList ++ []) [.text content] :=
      .text hcontent .nil fun _ _ he => absurd he (List.cons_ne_nil _ _).symm
    rw [List.append_nil] at htext
    rw [if_neg hcontent]
    exact htext

theorem textOf_textNodes (content : String) : Node.textOf (textNodes content) = content := by
  rw [textNodes]
  by_cases hcontent : content = ""
  · rw [if_pos hcontent, hcontent]
    rfl
  · rw [if_neg hcontent, Node.textOf, Node.textOf, Node.textContent, String.append_empty]

variable {v : Vocabulary} (h : v.IsBindable) (asOne : Bool)

include h in
/-- Leaves among foreign content are what the content holds. -/
theorem holds_rowChars {leaves : List (String × Leaf)} (hleaves : ∀ x ∈ leaves, x.2.IsWritable)
    (hgaps : ∀ gap ∈ leaves.map Prod.fst, v.IsForeign gap) {last : String}
    (hlast : v.IsForeign last) :
    v.Holds (rowChars v asOne leaves last) ((leaves.map Prod.snd).map (Leaf.element v)) := by
  induction leaves with
  | nil => exact hlast
  | cons x leaves ih =>
      have hrest := ih (fun y hy => hleaves y (List.mem_cons_of_mem x hy))
        fun gap hgap => hgaps gap (List.mem_cons_of_mem x.1 hgap)
      have hx := hleaves x List.mem_cons_self
      exact .around h (hgaps x.1 List.mem_cons_self) hx.name hx.attributes asOne
        (isContent_textNodes v.scope x.2.content) hrest

end Meaning

section Reading

/-- The value that an entry asks for. -/
def Entry.valueIn (m : Manifest) : Entry → String
  | .author => m.author
  | .description => m.description
  | .id => m.id
  | .language => m.language
  | .name => m.name
  | .version => m.version

/-- Among things of distinct keys each is found by its key, in whatever order they are. -/
theorem find?_of_perm {α : Type} {key : α → String} {as bs : List α} (hperm : as.Perm bs)
    (hkeys : (bs.map key).Nodup) {b : α} (hb : b ∈ bs) :
    as.find? (fun a => key a == key b) = some b := by
  cases hfind : as.find? (fun a => key a == key b) with
  | none =>
      have hnone := List.find?_eq_none.mp hfind b (hperm.mem_iff.mpr hb)
      exact absurd (beq_self_eq_true (key b)) hnone
  | some a =>
      have ha := hperm.mem_iff.mp (List.mem_of_find?_eq_some hfind)
      have hkey : (key a == key b) = true := List.find?_some (p := fun c => key c == key b) hfind
      rw [List.inj_on_of_nodup_map hkeys ha hb (beq_iff_eq.mp hkey)]

theorem valueOf?_element (v : Vocabulary) (leaf : Leaf) (name : String) :
    (leaf.element v).valueOf? name =
      (leaf.attributes.find? fun a => a.1 == name).map Prod.snd := by
  rw [Element.valueOf?, Leaf.element, Vocabulary.head, List.find?_map, Option.map_map]
  rfl

/-- Whether an element of a vocabulary holds the leaves of a manifest, in any order, and no other
    element of the vocabulary. -/
structure IsMetadata (v : Vocabulary) (m : Manifest) (attributes : List (String × String))
    (e : Element) : Prop where
  /-- It is in the namespace of the vocabulary. -/
  uri : e.head.uri = v.uri
  /-- What it holds are the leaves. -/
  leaves : ∃ leaves : List Leaf, v.own e.content = leaves.map (Leaf.element v) ∧
    leaves.Perm (m.leaves attributes)
  /-- The attributes are those of the identity, in any order. -/
  attributes : attributes.Perm m.identityAttributes

namespace IsMetadata

variable {v : Vocabulary} {m : Manifest} {e : Element} {attributes : List (String × String)}

theorem firstNamed? (h : IsMetadata v m attributes e) {leaf : Leaf}
    (hleaf : leaf ∈ m.leaves attributes) : e.firstNamed? leaf.name = some (leaf.element v) := by
  rcases h.leaves with ⟨leaves, hown, hleaves⟩
  have hnames : ((m.leaves attributes).map Leaf.name).Nodup := by
    have hdistinct : ["Identity", "DisplayName", "Description"].Nodup := by decide
    exact hdistinct
  rw [Vocabulary.firstNamed?_eq h.uri, hown, List.find?_map]
  exact congrArg (Option.map (Leaf.element v)) (find?_of_perm hleaves hnames hleaf)

theorem read?_value (h : IsMetadata v m attributes e) {a : String × String}
    (ha : a ∈ m.identityAttributes) : (Place.value "Identity" a.1).read? e = some a.2 := by
  have hidentity := h.firstNamed? List.mem_cons_self
  have hnames : (m.identityAttributes.map Prod.fst).Nodup := by
    have hdistinct : ["Id", "Version", "Language", "Publisher"].Nodup := by decide
    exact hdistinct
  rw [Place.read?, hidentity, Option.bind_some, valueOf?_element,
    find?_of_perm h.attributes hnames ha]
  rfl

theorem read?_content (h : IsMetadata v m attributes e) {leaf : Leaf}
    (hleaf : leaf ∈ m.leaves attributes) (htrimmed : Text.IsTrimmed leaf.content.toList) :
    (Place.content leaf.name).read? e = some leaf.content := by
  have htext : (leaf.element v).textContent = leaf.content := textOf_textNodes leaf.content
  rw [Place.read?, h.firstNamed? hleaf, Option.map_some, htext, Text.trim_eq_self htrimmed]

/-- Each value of a manifest is read from its leaves. -/
theorem readEntry (h : IsMetadata v m attributes e) (hname : Text.IsTrimmed m.name.toList)
    (hdescription : Text.IsTrimmed m.description.toList) (entry : Entry) :
    readEntry (some e) entry = .ok (entry.valueIn m) := by
  have hread : entry.place.read? e = some (entry.valueIn m) := by
    -- Four entries are attributes and two are texts, each at its own place among the leaves.
    cases entry with
    | author => exact h.read?_value (a := ("Publisher", _)) (by simp [identityAttributes])
    | description =>
        have hleaf : ⟨"Description", [], m.description⟩ ∈ m.leaves attributes := by
          simp [Manifest.leaves]
        exact h.read?_content hleaf hdescription
    | id => exact h.read?_value (a := ("Id", _)) (by simp [identityAttributes])
    | language => exact h.read?_value (a := ("Language", _)) (by simp [identityAttributes])
    | name =>
        have hleaf : ⟨"DisplayName", [], m.name⟩ ∈ m.leaves attributes := by
          simp [Manifest.leaves]
        exact h.read?_content hleaf hname
    | version => exact h.read?_value (a := ("Version", _)) (by simp [identityAttributes])
  rw [Manifest.readEntry, Option.bind_some, hread]

end IsMetadata

/-- A manifest is read from a root that declares the version and holds metadata. -/
theorem ofRoot_of_readEntry {m : Manifest} {root : Element}
    (hversion : declaredVersion? root = some "2.0.0")
    {metadata : Element} (hmetadata : root.firstNamed? "Metadata" = some metadata)
    (h : ∀ entry : Entry, readEntry (some metadata) entry = .ok (entry.valueIn m)) :
    ofRoot root = .ok m := by
  have hunderstood : version? "2.0.0" = some understoodVersion := by decide
  rw [ofRoot, hversion, hmetadata]
  simp only [Option.bind_some, hunderstood, h]
  rfl

end Reading

section Documents

theorem Arrangement.Describes.isWritable {a : Arrangement} {m : Manifest} (h : a.Describes m) :
    ∀ x ∈ a.leaves, x.2.IsWritable := by
  rcases h.leaves with ⟨attributes, hattributes, hleaves⟩
  have hidentity : Vocabulary.AreAttributes ["Id", "Version", "Language", "Publisher"] :=
    ⟨by decide, by decide, by decide⟩
  have hplain : isPlainName "Identity".toList = true ∧ isPlainName "DisplayName".toList = true ∧
      isPlainName "Description".toList = true := by
    decide
  intro x hx
  have hleaf := hleaves.mem_iff.mp (List.mem_map_of_mem hx)
  simp only [Manifest.leaves, List.mem_cons, List.not_mem_nil, or_false] at hleaf
  rcases hleaf with hleaf | hleaf | hleaf
  · rw [hleaf]
    exact ⟨hplain.1, hidentity.of_perm (hattributes.map Prod.fst)⟩
  · rw [hleaf]
    exact ⟨hplain.2.1, Vocabulary.areAttributes_nil⟩
  · rw [hleaf]
    exact ⟨hplain.2.2, Vocabulary.areAttributes_nil⟩

/-- A document with nothing in it but a manifest. -/
def Arrangement.plain (m : Manifest) : Arrangement where
  vocabulary := .absent
  asOne := true
  before := ""
  leaves := (m.leaves m.identityAttributes).map fun leaf => ("", leaf)
  last := ""
  behind := ""

theorem describes_plain (m : Manifest) : (Arrangement.plain m).Describes m := by
  have hnone : Vocabulary.absent.IsForeign "" := Vocabulary.isForeign_empty
  have hgaps : ∀ gap ∈ (Arrangement.plain m).leaves.map Prod.fst,
      Vocabulary.absent.IsForeign gap := by
    intro gap hgap
    have heq : gap = "" := List.eq_of_mem_replicate (n := 3) hgap
    rw [heq]
    exact hnone
  exact ⟨trivial, ⟨m.identityAttributes, .refl _, .refl _⟩, hgaps, hnone, hnone, hnone⟩

/-- Reads a manifest from its document, the events of which are read by a given reader. -/
def parseWith (read : EventReader) (text : String) : Except Error Manifest :=
  match Markup.parseWith read text with
  | .ok root => ofRoot root
  | .error error => .error (.markup error)

/-- The document of a manifest that is written has a root, and the manifest is read from it. -/
theorem exists_root_text {read : EventReader} (hread : ReadsContent read) {a : Arrangement}
    {m : Manifest} (h : a.Describes m) (hname : Text.IsTrimmed m.name.toList)
    (hdescription : Text.IsTrimmed m.description.toList) :
    ∃ root, Markup.parseWith read a.text = .ok root ∧ ofRoot root = .ok m := by
  have hbindable := h.bindable
  rcases h.leaves with ⟨attributes, hattributes, hleaves⟩
  rcases holds_rowChars hbindable a.asOne h.isWritable h.gaps h.last with ⟨inside, hinside, hown⟩
  have hplain : isPlainName "PackageManifest".toList = true ∧
      isPlainName "Metadata".toList = true := by
    decide
  have hnone : Vocabulary.AreAttributes (([] : List (String × String)).map Prod.fst) :=
    Vocabulary.areAttributes_nil
  have hversion : Vocabulary.AreAttributes ([("Version", "2.0.0")].map Prod.fst) :=
    ⟨by decide, by decide, by decide⟩
  have hchild := Vocabulary.Holds.around hbindable h.before hplain.2 hnone a.asOne hinside h.behind
  rcases Vocabulary.parseWith_around hread hbindable hplain.1 hversion a.asOne hchild with
    ⟨root, hparse, hhead, hroot⟩
  refine ⟨root, hparse, ?_⟩
  -- The root is known up to positions, which take no part.
  rw [← ofRoot_moved (fun _ => default), ← Element.unplaced_eq_moved]
  have huri : root.unplaced.head.uri = a.vocabulary.uri := congrArg Head.uri hhead
  have hmetadata : IsMetadata a.vocabulary m attributes
      ⟨a.vocabulary.head "Metadata" [], inside⟩ := ⟨rfl, ⟨_, hown, hleaves⟩, hattributes⟩
  refine ofRoot_of_readEntry ?_ ?_ (hmetadata.readEntry hname hdescription)
  · rw [declaredVersion?, Element.valueOf?, hhead]
    rfl
  · rw [Vocabulary.firstNamed?_eq huri, hroot]
    rfl

/-- A manifest that is written is read back, whatever foreign elements are in the document and
    whoever reads the events. -/
theorem parseWith_text {read : EventReader} (hread : ReadsContent read) {a : Arrangement}
    {m : Manifest} (h : a.Describes m) (hname : Text.IsTrimmed m.name.toList)
    (hdescription : Text.IsTrimmed m.description.toList) : parseWith read a.text = .ok m := by
  rcases exists_root_text hread h hname hdescription with ⟨root, hroot, hmanifest⟩
  rw [parseWith, hroot]
  exact hmanifest

/-- A manifest that is written is read back, whatever foreign elements are in the document. -/
theorem parse_text {a : Arrangement} {m : Manifest} (h : a.Describes m)
    (hname : Text.IsTrimmed m.name.toList) (hdescription : Text.IsTrimmed m.description.toList) :
    parse a.text = .ok m :=
  parseWith_text readsContent_pieceReader h hname hdescription

/-- A manifest with markup, quotes and line breaks in its values. -/
def quotingManifest : Manifest where
  id := "a<b>&\"c\""
  name := "'d'"
  description := "e\n\tf"
  language := ""
  author := " g "
  version := "1.0"

/-- Elements in no namespace that are called like those of a manifest. -/
def lookalikes : List Node :=
  [.element ⟨none, "Metadata", [⟨none, "Id", "x"⟩], default⟩
     [.element ⟨none, "Identity", [⟨none, "Id", "y"⟩], default⟩ [.text "z"]]]

/-- A document behind a prefix with look-alikes everywhere, and its values in reverse. -/
def crowdedArrangement : Arrangement :=
  let gap := String.ofList (Node.scriptOfAll true lookalikes).chars
  { vocabulary := .prefixed "v" "urn:manifests"
    asOne := true
    before := gap
    leaves := (quotingManifest.leaves quotingManifest.identityAttributes.reverse).reverse.map
      fun leaf => (gap, leaf)
    last := gap
    behind := gap }

theorem areWritable_lookalikes : Node.AreWritable lookalikes := by
  have hid : Vocabulary.AreAttributes ["Id"] := ⟨by decide, by decide, by decide⟩
  have hhead : ∀ name value, isPlainName name.toList = true →
      Head.IsWritable ⟨none, name, [⟨none, "Id", value⟩], default⟩ := by
    intro name value hname
    refine ⟨hname, fun _ huri => absurd huri (Option.not_mem_none _), fun a ha => ?_, hid⟩
    rw [List.mem_singleton.mp ha]
  have htext : Node.AreWritable [.text "z"] :=
    ⟨show "z" ≠ "" by decide, by decide, trivial⟩
  exact ⟨⟨hhead _ _ (by decide), ⟨hhead _ _ (by decide), htext⟩, by decide, trivial⟩, by decide,
    trivial⟩

theorem describes_crowdedArrangement : crowdedArrangement.Describes quotingManifest := by
  have hgap : crowdedArrangement.vocabulary.IsForeign crowdedArrangement.before :=
    Vocabulary.isForeign_written true areWritable_lookalikes rfl
  have hgaps : ∀ gap ∈ crowdedArrangement.leaves.map Prod.fst,
      crowdedArrangement.vocabulary.IsForeign gap := by
    intro gap h
    have heq : gap = crowdedArrangement.before :=
      List.eq_of_mem_replicate (n := 3) h
    rw [heq]
    exact hgap
  have hleaves : crowdedArrangement.leaves.map Prod.snd =
      (quotingManifest.leaves quotingManifest.identityAttributes.reverse).reverse := rfl
  have hlegal : crowdedArrangement.vocabulary.IsLegal := by decide
  exact ⟨hlegal.isBindable, ⟨_, List.reverse_perm _, hleaves ▸ List.reverse_perm _⟩, hgaps, hgap,
    hgap, hgap⟩

/-- With look-alikes everywhere, a manifest is read back from behind a prefix. -/
theorem parse_text_crowdedArrangement :
    crowdedArrangement.Describes quotingManifest ∧
      (Text.IsTrimmed quotingManifest.name.toList ∧
        Text.IsTrimmed quotingManifest.description.toList) ∧
      parse crowdedArrangement.text = .ok quotingManifest := by
  have htrimmed : Text.IsTrimmed quotingManifest.name.toList ∧
      Text.IsTrimmed quotingManifest.description.toList := by
    decide
  exact ⟨describes_crowdedArrangement, htrimmed,
    parse_text describes_crowdedArrangement htrimmed.1 htrimmed.2⟩

end Documents

end Manifest

end PackageSymbols

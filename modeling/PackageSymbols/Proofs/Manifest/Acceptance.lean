import PackageSymbols.Proofs.FirstFailure
import PackageSymbols.Proofs.Manifest.RoundTrip
import PackageSymbols.Proofs.Markup.Building
import PackageSymbols.Proofs.Numerals

/-!
# Which Documents Are Manifests

A document is a manifest if it says that it is of the version understood, and if
it has all the values of a manifest in their places. Both are told here by the
tree of the document: which element is the first of its siblings under a name,
and which attributes it has.

The version is looked at before everything else, so a document of another version
is refused for that, whatever it lacks. Among the values that a document lacks
the first in the order of `Entry.order` is reported, even if the same element is
at fault for several of them.

## Main definitions

* `IsFirst`: One of some things is the first with a property.
* `Markup.Element.HasChild`, `Markup.Element.HasValue`: The first element under a
  name, and the first attribute.
* `Manifest.IsDotted`: Numerals with dots between them.
* `Manifest.IsUnderstood`: A document is of the version understood.
* `Manifest.Holds`: What a document has in the place of a value.
* `Manifest.IsComplete`: A document has all values.

## Theorems

* `Manifest.version?_eq_some_iff`: Which texts are versions.
* `Manifest.map_ofRoot`: A manifest is what its entries hold, in order.
* `Manifest.ofRoot_eq_ok_iff`: What is read from a document.
* `Manifest.parse_of_root`: Which documents are manifests, and what is wrong with
  the others.
-/

namespace PackageSymbols

open Markup

/-- Whether one of some things is the first that has a property. -/
def IsFirst {α : Type} (p : α → Prop) (as : List α) (a : α) : Prop :=
  ∃ before behind, as = before ++ a :: behind ∧ p a ∧ ∀ b ∈ before, ¬p b

section First

variable {α : Type} {p : α → Prop} {q : α → Bool} {as : List α}

theorem find?_eq_some_iff_isFirst (h : ∀ a, q a = true ↔ p a) {a : α} :
    as.find? q = some a ↔ IsFirst p as a := by
  rw [List.find?_eq_some_iff_append, IsFirst]
  simp only [Bool.not_eq_true', ← Bool.not_eq_true, h]
  constructor
  · rintro ⟨ha, before, behind, has, hbefore⟩
    exact ⟨before, behind, has, ha, hbefore⟩
  · rintro ⟨before, behind, has, ha, hbefore⟩
    exact ⟨ha, before, behind, has, hbefore⟩

theorem IsFirst.unique {a b : α} (ha : IsFirst p as a) (hb : IsFirst p as b) : a = b := by
  classical
  have hp : ∀ c, decide (p c) = true ↔ p c := fun c => decide_eq_true_iff
  rw [← find?_eq_some_iff_isFirst hp] at ha hb
  exact Option.some_inj.mp (ha.symm.trans hb)

/-- There is a first thing with a property if there is any. -/
theorem exists_isFirst_iff : (∃ a, IsFirst p as a) ↔ ∃ a ∈ as, p a := by
  classical
  have hp : ∀ c, decide (p c) = true ↔ p c := fun c => decide_eq_true_iff
  simp only [← find?_eq_some_iff_isFirst hp, ← Option.isSome_iff_exists, List.find?_isSome, hp]

end First

namespace Markup

namespace Element

/-- Whether an element has a name in a namespace. -/
def IsCalled (uri : Option String) (name : String) (e : Element) : Prop :=
  e.head.name = name ∧ e.head.uri = uri

/-- Whether an element is the first inside of another that has a name in its namespace. -/
def HasChild (e : Element) (name : String) (child : Element) : Prop :=
  IsFirst (IsCalled e.head.uri name) e.children child

/-- Whether the first attribute that has a name and no namespace has a value. -/
def HasValue (e : Element) (name value : String) : Prop :=
  ∃ a, IsFirst (fun a => a.uri = none ∧ a.name = name) e.head.attributes a ∧ a.value = value

theorem firstNamed?_eq_some_iff {e child : Element} {name : String} :
    e.firstNamed? name = some child ↔ e.HasChild name child := by
  refine find?_eq_some_iff_isFirst fun a => ?_
  rw [answersTo, Bool.and_eq_true, beq_iff_eq, beq_iff_eq, IsCalled]

theorem valueOf?_eq_some_iff {e : Element} {name value : String} :
    e.valueOf? name = some value ↔ e.HasValue name value := by
  have hfirst : ∀ a : Attribute, (a.uri.isNone && a.name == name) = true ↔
      a.uri = none ∧ a.name = name := by
    intro a
    rw [Bool.and_eq_true, Option.isNone_iff_eq_none, beq_iff_eq]
  rw [valueOf?, Option.map_eq_some_iff, HasValue]
  simp only [find?_eq_some_iff_isFirst hfirst]

end Element

end Markup

namespace Manifest

section Versions

/-- Whether characters are decimal numerals of given numbers with dots between them. -/
def IsDotted (numbers : List Nat) (cs : List Char) : Prop :=
  ∃ parts, List.Forall₂ (Text.IsNumeral 10) numbers parts ∧ cs = List.intercalate ['.'] parts

theorem splitDots_eq_splitOn (cs : List Char) : splitDots cs = cs.splitOn '.' := by
  induction cs with
  | nil => rfl
  | cons c cs ih =>
      rw [splitDots, List.splitOn_cons_eq_if_modifyHead, ih]
      by_cases hc : c = '.'
      · rw [if_pos hc, if_pos (beq_iff_eq.mpr hc)]
      · rw [if_neg hc, if_neg fun h => hc (beq_iff_eq.mp h)]
        cases hparts : cs.splitOn '.' with
        | nil => exact absurd hparts (List.splitOn_ne_nil '.' cs)
        | cons part parts => rfl

theorem versionNumber?_eq_some_iff {part : List Char} {n : Nat} :
    versionNumber? part = some n ↔ n < UInt32.size ∧ Text.IsNumeral 10 n part := by
  rw [versionNumber?, Option.filter_eq_some_iff, decide_eq_true_iff,
    Text.ofDigits?_eq_some_iff (by decide), and_comm]

theorem mapM_versionNumber?_iff {parts : List (List Char)} {numbers : List Nat} :
    parts.mapM versionNumber? = some numbers ↔
      (∀ n ∈ numbers, n < UInt32.size) ∧ List.Forall₂ (Text.IsNumeral 10) numbers parts := by
  rw [mapM_eq_some_iff, ← List.forall₂_and_left]
  simp only [versionNumber?_eq_some_iff]
  exact ⟨List.Forall₂.flip, List.Forall₂.flip⟩

/-- The dots of a version are all between its numerals. -/
theorem splitDots_of_isDotted {numbers : List Nat} {cs : List Char} (hnumbers : numbers ≠ []) :
    IsDotted numbers cs ↔ List.Forall₂ (Text.IsNumeral 10) numbers (splitDots cs) := by
  rw [splitDots_eq_splitOn]
  constructor
  · rintro ⟨parts, hparts, rfl⟩
    have hne : parts ≠ [] := by
      rintro rfl
      cases hparts
      exact hnumbers rfl
    have hdots : ∀ part ∈ parts, '.' ∉ part := by
      intro part hpart hdot
      rcases exists_of_mem_forall₂ hparts hpart with ⟨n, _, hnumeral⟩
      exact absurd (hnumeral.isDigit (by decide) '.' hdot) (by decide)
    rw [List.splitOn_intercalate '.' hdots hne]
    exact hparts
  · intro h
    exact ⟨cs.splitOn '.', h, (List.intercalate_splitOn '.').symm⟩

/-- A text is a version if it is, without the blanks at its ends, two to four numerals with dots
    between them, none of which exceeds what a version can hold. -/
theorem version?_eq_some_iff {text : String} {numbers : List Nat} :
    version? text = some numbers ↔ (2 ≤ numbers.length ∧ numbers.length ≤ 4) ∧
      (∀ n ∈ numbers, n < UInt32.size) ∧ IsDotted numbers (Text.trimChars text.toList) := by
  -- A text is split into one field at least, so the row of numbers must not be empty.
  have hdotted : ∀ others : List Nat, 2 ≤ others.length →
      ((splitDots (Text.trimChars text.toList)).mapM versionNumber? = some others ↔
        (∀ n ∈ others, n < UInt32.size) ∧ IsDotted others (Text.trimChars text.toList)) := by
    intro others hlength
    rw [mapM_versionNumber?_iff, splitDots_of_isDotted]
    rintro rfl
    exact absurd hlength (by decide)
  unfold version?
  constructor
  · intro h
    cases hrow : (splitDots (Text.trimChars text.toList)).mapM versionNumber? with
    | none =>
        rw [hrow] at h
        cases h
    | some others =>
        simp only [hrow] at h
        by_cases hlength : 2 ≤ others.length ∧ others.length ≤ 4
        · rw [if_pos hlength, Option.some_inj] at h
          rw [← h]
          exact ⟨hlength, (hdotted others hlength.1).mp hrow⟩
        · rw [if_neg hlength] at h
          cases h
  · rintro ⟨hlength, h⟩
    simp only [(hdotted numbers hlength.1).mpr h]
    rw [if_pos hlength]

/-- The version that is understood may be written with blanks around it and with zeros in front of
    its numbers, and in no other way. -/
theorem version?_eq_understoodVersion_iff {text : String} :
    version? text = some understoodVersion ↔ IsDotted [2, 0, 0] (Text.trimChars text.toList) := by
  have hlength : 2 ≤ understoodVersion.length ∧ understoodVersion.length ≤ 4 := by decide
  have hsize : ∀ n ∈ understoodVersion, n < UInt32.size := by decide
  rw [version?_eq_some_iff, and_iff_right hlength, and_iff_right hsize, understoodVersion]

end Versions

section Entries

/-- The values of a manifest in the order in which they are asked for. -/
def Entry.order : List Entry :=
  [.author, .description, .id, .language, .name, .version]

/-- Whether a document declares a version: its root is that of a manifest, and says so. -/
def Declares (root : Element) (version : String) : Prop :=
  root.head.name = "PackageManifest" ∧ root.HasValue "Version" version

/-- Whether a document is of the version that is understood. -/
def IsUnderstood (root : Element) : Prop :=
  ∃ version, Declares root version ∧ IsDotted [2, 0, 0] (Text.trimChars version.toList)

/-- Whether a document has a value in the place of an entry. -/
def Holds (root : Element) (entry : Entry) (value : String) : Prop :=
  ∃ metadata, root.HasChild "Metadata" metadata ∧
    match entry.place with
    | .content name => ∃ e, metadata.HasChild name e ∧ Text.trim e.textContent = value
    | .value name attributeName => ∃ e, metadata.HasChild name e ∧ e.HasValue attributeName value

/-- Whether a document has nothing in the place of an entry. -/
def IsMissing (root : Element) (entry : Entry) : Prop :=
  ¬∃ value, Holds root entry value

/-- Whether a document has all that is required below its root. -/
def IsComplete (root : Element) : Prop :=
  ∃ metadata, root.HasChild "Metadata" metadata ∧
    (∃ identity, metadata.HasChild "Identity" identity ∧
      ∀ name ∈ ["Publisher", "Id", "Language", "Version"],
        ∃ a ∈ identity.head.attributes, a.uri = none ∧ a.name = name) ∧
    ∀ name ∈ ["DisplayName", "Description"],
      ∃ e ∈ metadata.children, e.IsCalled metadata.head.uri name

theorem declaredVersion?_eq_some_iff {root : Element} {version : String} :
    declaredVersion? root = some version ↔ Declares root version := by
  rw [declaredVersion?, Declares]
  by_cases hname : root.head.name = "PackageManifest"
  · rw [if_pos hname, and_iff_right hname, Element.valueOf?_eq_some_iff]
  · rw [if_neg hname]
    simp only [hname, reduceCtorEq, false_and]

theorem isUnderstood_iff {root : Element} :
    IsUnderstood root ↔ (declaredVersion? root).bind version? = some understoodVersion := by
  rw [Option.bind_eq_some_iff, IsUnderstood]
  simp only [declaredVersion?_eq_some_iff, version?_eq_understoodVersion_iff]

theorem readEntry_eq_ok_iff {root : Element} {entry : Entry} {value : String} :
    readEntry (root.firstNamed? "Metadata") entry = .ok value ↔ Holds root entry value := by
  have hread : readEntry (root.firstNamed? "Metadata") entry = .ok value ↔
      (root.firstNamed? "Metadata").bind entry.place.read? = some value := by
    rw [readEntry]
    cases (root.firstNamed? "Metadata").bind entry.place.read? with
    | none => simp only [reduceCtorEq]
    | some found => rw [Except.ok.injEq, Option.some_inj]
  rw [hread, Option.bind_eq_some_iff, Holds]
  refine exists_congr fun metadata => and_congr Element.firstNamed?_eq_some_iff ?_
  cases entry.place with
  | content name =>
      rw [Place.read?, Option.map_eq_some_iff]
      simp only [Element.firstNamed?_eq_some_iff]
  | value name attributeName =>
      rw [Place.read?, Option.bind_eq_some_iff]
      simp only [Element.firstNamed?_eq_some_iff, Element.valueOf?_eq_some_iff]

theorem readEntry_eq_error_iff {root : Element} {entry : Entry} {error : Error} :
    readEntry (root.firstNamed? "Metadata") entry = .error error ↔
      error = .missing entry ∧ IsMissing root entry := by
  rw [IsMissing]
  simp only [← readEntry_eq_ok_iff]
  rw [readEntry]
  cases (root.firstNamed? "Metadata").bind entry.place.read? with
  | none =>
      simp only [Except.error.injEq, reduceCtorEq, exists_false, not_false_eq_true, and_true,
        eq_comm]
  | some found =>
      simp only [reduceCtorEq, Except.ok.injEq, exists_eq', not_true_eq_false, and_false]

/-- Below given metadata it is enough to look for elements and attributes of the right names. -/
theorem exists_holds_iff {root metadata : Element} (hmetadata : root.HasChild "Metadata" metadata)
    {entry : Entry} :
    (∃ value, Holds root entry value) ↔
      match entry.place with
      | .content name => ∃ e ∈ metadata.children, e.IsCalled metadata.head.uri name
      | .value name attributeName => ∃ e, metadata.HasChild name e ∧
          ∃ a ∈ e.head.attributes, a.uri = none ∧ a.name = attributeName := by
  -- Only one element counts as the metadata, so what one of them has is what this one has.
  have honly : ∀ {p : Element → Prop}, (∃ e, root.HasChild "Metadata" e ∧ p e) ↔ p metadata := by
    intro p
    constructor
    · rintro ⟨e, he, hp⟩
      rw [hmetadata.unique he]
      exact hp
    · intro hp
      exact ⟨metadata, hmetadata, hp⟩
  simp only [Holds, honly]
  cases entry.place with
  | content name =>
      constructor
      · rintro ⟨_, e, he, _⟩
        exact exists_isFirst_iff.mp ⟨e, he⟩
      · intro h
        rcases exists_isFirst_iff.mpr h with ⟨e, he⟩
        exact ⟨_, e, he, rfl⟩
  | value name attributeName =>
      constructor
      · rintro ⟨_, e, he, a, ha, _⟩
        exact ⟨e, he, exists_isFirst_iff.mp ⟨a, ha⟩⟩
      · rintro ⟨e, he, h⟩
        rcases exists_isFirst_iff.mpr h with ⟨a, ha⟩
        exact ⟨_, e, he, a, ha, rfl⟩

/-- A document is complete if nothing is missing. -/
theorem isComplete_iff {root : Element} :
    IsComplete root ↔ ∀ entry, ∃ value, Holds root entry value := by
  constructor
  · rintro ⟨metadata, hmetadata, ⟨identity, hidentity, hattributes⟩, hchildren⟩ entry
    rw [exists_holds_iff hmetadata]
    cases entry with
    | author => exact ⟨identity, hidentity, hattributes "Publisher" (by decide)⟩
    | description => exact hchildren "Description" (by decide)
    | id => exact ⟨identity, hidentity, hattributes "Id" (by decide)⟩
    | language => exact ⟨identity, hidentity, hattributes "Language" (by decide)⟩
    | name => exact hchildren "DisplayName" (by decide)
    | version => exact ⟨identity, hidentity, hattributes "Version" (by decide)⟩
  · intro h
    rcases h .author with ⟨_, metadata, hmetadata, _⟩
    have hall := fun entry => (exists_holds_iff hmetadata).mp (h entry)
    rcases hall .author with ⟨identity, hidentity, hpublisher⟩
    -- All attributes are found at the same element.
    have hattribute : ∀ {name : String}, (∃ e, metadata.HasChild "Identity" e ∧
        ∃ a ∈ e.head.attributes, a.uri = none ∧ a.name = name) →
          ∃ a ∈ identity.head.attributes, a.uri = none ∧ a.name = name := by
      rintro name ⟨e, he, ha⟩
      rw [hidentity.unique he]
      exact ha
    refine ⟨metadata, hmetadata, ⟨identity, hidentity, ?_⟩, ?_⟩
    · simp only [List.forall_mem_cons]
      exact ⟨hpublisher, hattribute (hall .id), hattribute (hall .language),
        hattribute (hall .version), List.forall_mem_nil _⟩
    · simp only [List.forall_mem_cons]
      exact ⟨hall .name, hall .description, List.forall_mem_nil _⟩

theorem Entry.mem_order (entry : Entry) : entry ∈ Entry.order := by
  cases entry <;> decide

/-- What is read from a document of the right version, as values in a row, is what its entries
    hold one after another. -/
theorem map_ofRoot {root : Element} (h : IsUnderstood root) :
    (ofRoot root).map (fun m => Entry.order.map (·.valueIn m)) =
      Entry.order.mapM (readEntry (root.firstNamed? "Metadata")) := by
  rw [ofRoot, if_pos (isUnderstood_iff.mp h)]
  simp only [Entry.order, List.mapM_cons, List.mapM_nil]
  generalize readEntry (root.firstNamed? "Metadata") = read
  -- After the first value that is missing neither side looks at any other.
  cases read .author with
  | error => rfl
  | ok author =>
  cases read .description with
  | error => rfl
  | ok description =>
  cases read .id with
  | error => rfl
  | ok id =>
  cases read .language with
  | error => rfl
  | ok language =>
  cases read .name with
  | error => rfl
  | ok name =>
  cases read .version with
  | error => rfl
  | ok version => rfl

/-- A manifest is told by the values of its entries. -/
theorem eq_of_valueIn {m other : Manifest}
    (h : ∀ entry : Entry, entry.valueIn m = entry.valueIn other) : m = other := by
  cases m
  cases other
  rw [mk.injEq]
  exact ⟨h .id, h .name, h .description, h .language, h .author, h .version⟩

/-- A manifest is read from a document exactly if the document is of the right version and has the
    values of the manifest in their places. -/
theorem ofRoot_eq_ok_iff {root : Element} {m : Manifest} :
    ofRoot root = .ok m ↔ IsUnderstood root ∧ ∀ entry, Holds root entry (entry.valueIn m) := by
  by_cases hversion : IsUnderstood root
  · have hrow : (∃ other, ofRoot root = .ok other ∧
        Entry.order.map (·.valueIn other) = Entry.order.map (·.valueIn m)) ↔
          ∀ entry ∈ Entry.order, Holds root entry (entry.valueIn m) := by
      rw [exists_eq_ok_iff_of_map (map_ofRoot hversion), List.forall₂_map_right_iff,
        List.forall₂_same]
      simp only [readEntry_eq_ok_iff]
    constructor
    · intro h
      exact ⟨hversion, fun entry => hrow.mp ⟨m, h, rfl⟩ entry entry.mem_order⟩
    · rintro ⟨_, hholds⟩
      rcases hrow.mpr fun entry _ => hholds entry with ⟨other, hother, hsame⟩
      rw [hother, eq_of_valueIn fun entry => List.map_inj_left.mp hsame entry entry.mem_order]
  · rw [ofRoot, if_neg fun h => hversion (isUnderstood_iff.mpr h)]
    simp only [reduceCtorEq, hversion, false_and]

/-- A document is a manifest if it is of the right version and complete. -/
theorem exists_ofRoot_eq_ok_iff {root : Element} :
    (∃ m, ofRoot root = .ok m) ↔ IsUnderstood root ∧ IsComplete root := by
  by_cases hversion : IsUnderstood root
  · rw [exists_ok_iff_of_map (map_ofRoot hversion), and_iff_right hversion, isComplete_iff]
    simp only [readEntry_eq_ok_iff, Entry.mem_order, true_imp_iff]
  · simp only [ofRoot_eq_ok_iff, hversion, false_and, exists_false]

/-- The first value that is missing is what is wrong with a document that is not complete. -/
theorem exists_missing {root : Element} (hversion : IsUnderstood root) (h : ¬IsComplete root) :
    ∃ entry, IsFirst (IsMissing root) Entry.order entry ∧
      ofRoot root = .error (.missing entry) := by
  cases hread : ofRoot root with
  | ok m => exact absurd (exists_ofRoot_eq_ok_iff.mp ⟨m, hread⟩).2 h
  | error error =>
      rcases (eq_error_iff_of_map (map_ofRoot hversion)).mp hread with
        ⟨before, entry, behind, horder, hbefore, hentry⟩
      rcases readEntry_eq_error_iff.mp hentry with ⟨rfl, hmissing⟩
      simp only [readEntry_eq_ok_iff] at hbefore
      refine ⟨entry, ⟨before, behind, horder, hmissing, fun other hother => ?_⟩, rfl⟩
      exact not_not_intro (hbefore other hother)

end Entries

/-- Which documents are manifests, and what is wrong with the others. A document is a manifest if
    it is of the version understood and complete. If it is of no version or of another, that is
    the error, whatever else is missing, and the version is told as it is found. If it is only
    incomplete, the error tells the first value that is missing, by its path. -/
theorem parse_of_root {text : String} {root : Element} (hroot : Markup.parse text = .ok root) :
    ((∃ m, parse text = .ok m) ↔ IsUnderstood root ∧ IsComplete root) ∧
    (¬IsUnderstood root → ∃ found, parse text = .error (.unsupportedVersion found) ∧
      ∀ version, found = some version ↔ Declares root version) ∧
    (IsUnderstood root → ¬IsComplete root → ∃ entry,
      IsFirst (IsMissing root) Entry.order entry ∧ parse text = .error (.missing entry)) ∧
    Entry.order.map Entry.path =
      ["/PackageManifest/Metadata/Identity/@Publisher",
        "/PackageManifest/Metadata/Description",
        "/PackageManifest/Metadata/Identity/@Id",
        "/PackageManifest/Metadata/Identity/@Language",
        "/PackageManifest/Metadata/DisplayName",
        "/PackageManifest/Metadata/Identity/@Version"] := by
  have hparse : parse text = ofRoot root := by rw [parse, hroot]
  rw [hparse]
  refine ⟨exists_ofRoot_eq_ok_iff, ?_, exists_missing, by decide⟩
  intro hversion
  refine ⟨declaredVersion? root, ?_, fun version => declaredVersion?_eq_some_iff⟩
  rw [ofRoot, if_neg fun h => hversion (isUnderstood_iff.mpr h)]

/-- A document of the right version, written with zeros and blanks, in which only the first value is
    in its place. -/
def incomplete : String :=
  "<PackageManifest Version=' 02.0.00 '><Metadata><Identity Publisher='p'/></Metadata>" ++
    "</PackageManifest>"

/-- The root of that document. -/
def incompleteRoot : Element where
  head := ⟨none, "PackageManifest", [⟨none, "Version", " 02.0.00 "⟩], ⟨0, 0⟩⟩
  content :=
    [.element ⟨none, "Metadata", [], ⟨0, 37⟩⟩
      [.element ⟨none, "Identity", [⟨none, "Publisher", "p"⟩], ⟨0, 47⟩⟩ []]]

/-- Of five values that are missing the description is told to be missing. -/
theorem parse_of_root_incomplete :
    Markup.parse incomplete = .ok incompleteRoot ∧ IsUnderstood incompleteRoot ∧
      ¬IsComplete incompleteRoot ∧ parse incomplete = .error (.missing .description) := by
  have hroot : Markup.parse incomplete = .ok incompleteRoot :=
    parse_eq_of_map_events (by decide +kernel)
  have hversion : IsUnderstood incompleteRoot := isUnderstood_iff.mpr (by decide)
  have hauthor : Holds incompleteRoot .author "p" := readEntry_eq_ok_iff.mp rfl
  have hmissing : IsMissing incompleteRoot .description := (readEntry_eq_error_iff.mp rfl).2
  have hfirst : IsFirst (IsMissing incompleteRoot) Entry.order .description :=
    ⟨[.author], [.id, .language, .name, .version], rfl, hmissing,
      List.forall_mem_singleton.mpr (not_not_intro ⟨"p", hauthor⟩)⟩
  have hincomplete : ¬IsComplete incompleteRoot := fun h =>
    hmissing (isComplete_iff.mp h .description)
  rcases (parse_of_root hroot).2.2.1 hversion hincomplete with ⟨entry, hentry, herror⟩
  rw [hentry.unique hfirst] at herror
  exact ⟨hroot, hversion, hincomplete, herror⟩

end Manifest

end PackageSymbols

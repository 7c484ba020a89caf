import Mathlib.Data.List.Nodup
import PackageSymbols.Proofs.Markup.Heads

/-!
# Documents in One Namespace

The elements of a schema are all in one namespace, which a document can say in
different ways: by no declaration at all, by a default namespace, or by one
prefix in front of every name. Whichever way is taken, the root declares what
there is to declare, and what is inside of it has its namespace without a word.

## Main definitions

* `Vocabulary`: How the elements of a document come to their namespace.
* `Vocabulary.IsLegal`, `Vocabulary.IsBindable`: What the root may declare, with
  a plain name as prefix or with any.
* `Vocabulary.opening`, `Vocabulary.rootOpening`: The tags of elements and of
  the root.
* `Script.around`: An element, in one tag or in two when nothing is inside.
* `Vocabulary.row`: Elements of one name, one after the other.

## Theorems

* `Vocabulary.wellFormed_opening`, `Vocabulary.wellFormed_rootOpening`: Tags of
  a legal vocabulary are read back.
* `Vocabulary.uri?_scope`: All elements are in the namespace of the vocabulary.
* `Vocabulary.nodes_row`, `Vocabulary.wellFormed_row`: What a row of elements
  means, and that it is read back.
-/

namespace PackageSymbols

namespace Markup

/-- How the elements of a document come to their namespace. -/
inductive Vocabulary where
  /-- They are in no namespace. -/
  | absent
  /-- They are in the default namespace, which the root declares. -/
  | unprefixed (uri : String)
  /-- They all have one prefix, which the root declares. -/
  | prefixed (name uri : String)
deriving DecidableEq, Repr

/-- Whether a namespace can stand in quotes and is one. -/
def IsUri (uri : String) : Prop :=
  uri ≠ "" ∧ ∀ c ∈ uri.toList, c ≠ '"'

instance (uri : String) : Decidable (IsUri uri) :=
  @instDecidableAnd _ _ inferInstance (List.decidableBAll (fun c => c ≠ '"') uri.toList)

namespace Vocabulary

variable (v : Vocabulary)

/-- The prefix of all names. -/
def qualifier : Vocabulary → Option String
  | absent => none
  | unprefixed _ => none
  | prefixed name _ => some name

/-- What the root declares. -/
def bindings : Vocabulary → List Binding
  | absent => []
  | unprefixed uri => [⟨"", uri⟩]
  | prefixed name uri => [⟨name, uri⟩]

/-- Whether the root may declare it. -/
def IsLegal : Vocabulary → Prop
  | absent => True
  | unprefixed uri => IsUri uri
  | prefixed name uri =>
      (isPlainName name.toList = true ∧ name ≠ "xml" ∧ name ≠ "xmlns") ∧
        IsUri uri ∧ uri ≠ xmlUri ∧ uri ≠ xmlnsUri

instance : ∀ v : Vocabulary, Decidable v.IsLegal
  | absent => isTrue trivial
  | unprefixed uri => inferInstanceAs (Decidable (IsUri uri))
  | prefixed name uri => inferInstanceAs (Decidable
      ((isPlainName name.toList = true ∧ name ≠ "xml" ∧ name ≠ "xmlns") ∧
        IsUri uri ∧ uri ≠ xmlUri ∧ uri ≠ xmlnsUri))

/-- Whether the root may declare it, with any prefix that is read as it stands. -/
def IsBindable : Vocabulary → Prop
  | absent => True
  | unprefixed uri => IsUri uri
  | prefixed name uri =>
      (IsNamePart name.toList ∧ name ≠ "xml" ∧ name ≠ "xmlns") ∧
        IsUri uri ∧ uri ≠ xmlUri ∧ uri ≠ xmlnsUri

/-- The namespace of all elements. -/
def uri : Vocabulary → Option String
  | absent => none
  | unprefixed uri => some uri
  | prefixed _ uri => some uri

/-- The scope inside of the root. -/
def scope : Scope :=
  v.bindings.reverse ++ Scope.initial

/-- The tag of an element with attributes that have no namespace. -/
def opening (name : String) (attributes : List (String × String)) : Opening where
  label := { qualifier := v.qualifier, part := name }
  bindings := []
  attributes := attributes.map fun a => ({ qualifier := none, part := a.1 }, a.2)

/-- The tag of the root. -/
def rootOpening (name : String) (attributes : List (String × String)) : Opening :=
  { v.opening name attributes with bindings := v.bindings }

/-- What the tag of an element says. -/
def head (name : String) (attributes : List (String × String)) : Head where
  uri := v.uri
  name := name
  attributes := attributes.map fun a => { uri := none, name := a.1, value := a.2 }
  position := default

variable {v}

theorem IsLegal.isBindable (h : v.IsLegal) : v.IsBindable := by
  cases v with
  | absent => exact trivial
  | unprefixed uri => exact h
  | prefixed name uri => exact ⟨⟨isNamePart_of_isPlainName h.1.1, h.1.2⟩, h.2⟩

theorem uri?_cons {b : Binding} (h : b.uri ≠ "") (scope : Scope) :
    Scope.uri? (b :: scope) b.name = some b.uri := by
  have hfound : (b :: scope).find? (fun c => c.name == b.name) = some b := by
    rw [List.find?_cons, beq_self_eq_true]
  have hkept : (b.uri != "") = true := bne_iff_ne.mpr h
  rw [Scope.uri?, hfound, Option.map_some]
  exact Option.filter_some_pos hkept

/-- All elements are in the namespace of the vocabulary. -/
theorem uri?_scope (h : v.IsBindable) : v.scope.uri? (v.qualifier.getD "") = v.uri := by
  cases v with
  | absent => decide
  | unprefixed uri => exact uri?_cons h.1 Scope.initial
  | prefixed name uri => exact uri?_cons h.2.1.1 Scope.initial

theorem isSome_of_qualifier (h : v.IsBindable) :
    ∀ q ∈ v.qualifier, (v.scope.uri? q).isSome := by
  intro q hq
  have huri := uri?_scope h
  rw [Option.mem_def.mp hq, Option.getD_some] at huri
  -- Where there is a prefix there is a namespace for it.
  rw [huri]
  cases v with
  | absent => exact absurd hq (by simp only [qualifier, Option.not_mem_none, not_false_eq_true])
  | unprefixed uri => rfl
  | prefixed name uri => rfl

theorem isLegal_of_mem_bindings (h : v.IsBindable) : ∀ b ∈ v.bindings, b.IsLegal := by
  intro b hb
  cases v with
  | absent => exact absurd hb List.not_mem_nil
  | unprefixed uri =>
      rw [List.mem_singleton.mp hb]
      exact ⟨h.2, fun hne => absurd rfl hne, fun hne => absurd rfl hne⟩
  | prefixed name uri =>
      rw [List.mem_singleton.mp hb]
      exact ⟨h.2.1.2, fun _ => h.1, fun _ => h.2.2⟩

/-- Whether names can be those of the attributes of one element. -/
structure AreAttributes (names : List String) : Prop where
  /-- They are plain names. -/
  plain : ∀ name ∈ names, isPlainName name.toList = true
  /-- None of them declares a namespace. -/
  free : "xmlns" ∉ names
  /-- None of them is there twice. -/
  distinct : names.Nodup

theorem areAttributes_nil : AreAttributes [] :=
  ⟨fun _ hn => absurd hn List.not_mem_nil, List.not_mem_nil, List.nodup_nil⟩

theorem AreAttributes.of_perm {names more : List String} (h : AreAttributes names)
    (hperm : more.Perm names) : AreAttributes more :=
  ⟨fun name hname => h.plain name (hperm.mem_iff.mp hname), fun hfree =>
    h.free (hperm.mem_iff.mp hfree), hperm.nodup_iff.mpr h.distinct⟩

theorem isPlain_label (h : v.IsBindable) {name : String} (hname : isPlainName name.toList = true) :
    Label.IsPlain { qualifier := v.qualifier, part := name } := by
  refine ⟨isNamePart_of_isPlainName hname, fun q hq => ?_⟩
  cases v with
  | absent => exact absurd hq (by simp only [qualifier, Option.not_mem_none, not_false_eq_true])
  | unprefixed uri =>
      exact absurd hq (by simp only [qualifier, Option.not_mem_none, not_false_eq_true])
  | prefixed name uri =>
      rw [← Option.some.inj hq]
      exact h.1.1

theorem isAttribute_label {names : List String} (h : AreAttributes names) {name : String}
    (hname : name ∈ names) (scope : Scope) :
    Label.IsAttribute scope { qualifier := none, part := name } := by
  have hpart : IsNamePart name.toList := isNamePart_of_isPlainName (h.plain name hname)
  refine ⟨⟨hpart, ?_⟩, fun _ he => h.free (he ▸ hname), ?_, ?_⟩
  · exact fun _ hq => absurd hq (Option.not_mem_none _)
  · simp only [ne_eq, reduceCtorEq, not_false_eq_true]
  · exact fun _ hq => absurd hq (Option.not_mem_none _)

/-- A tag of the vocabulary with any bindings is read back where its prefix is bound. -/
theorem wellFormed_of_bindings (h : v.IsBindable) {scope : Scope}
    (hbound : ∀ q ∈ v.qualifier, (scope.uri? q).isSome) {bindings : List Binding}
    (hlegal : ∀ b ∈ bindings, b.IsLegal) (hdistinct : (bindings.map fun b => b.pair.1).Nodup)
    {name : String} (hname : isPlainName name.toList = true) {attributes : List (String × String)}
    (hattributes : AreAttributes (attributes.map Prod.fst)) :
    Opening.WellFormed scope { v.opening name attributes with bindings := bindings } := by
  have hattribute : ∀ a ∈ (v.opening name attributes).attributes,
      a.1.IsAttribute scope := by
    intro a ha
    rcases List.mem_map.mp ha with ⟨b, hb, rfl⟩
    exact isAttribute_label hattributes (List.mem_map_of_mem hb) scope
  refine ⟨isPlain_label h hname, hbound, hlegal, hattribute, ?_⟩
  rw [Opening.pairs, List.map_append, List.map_map, List.map_map, List.nodup_append]
  refine ⟨hdistinct, ?_, ?_⟩
  · have hkeys := List.Nodup.map (fun _ _ he => String.toList_injective he) hattributes.distinct
    rw [List.map_map] at hkeys
    rw [opening, List.map_map]
    exact hkeys
  · -- The key of a binding declares something, and that of an attribute does not.
    intro key hbinding other hother he
    rcases List.mem_map.mp hbinding with ⟨b, _, rfl⟩
    rcases List.mem_map.mp hother with ⟨a, ha, rfl⟩
    have hdeclares := ofKey?_pair b
    have hfree := ofKey?_chars (hattribute a ha)
    have hsame : b.pair.1 = a.1.chars := he
    rw [hsame, hfree] at hdeclares
    exact absurd hdeclares (by simp only [reduceCtorEq, not_false_eq_true])

/-- The tags of elements are read back. -/
theorem wellFormed_opening (h : v.IsBindable) {name : String}
    (hname : isPlainName name.toList = true) {attributes : List (String × String)}
    (hattributes : AreAttributes (attributes.map Prod.fst)) :
    (v.opening name attributes).WellFormed v.scope :=
  wellFormed_of_bindings h (isSome_of_qualifier h) (fun _ hb => absurd hb List.not_mem_nil)
    List.nodup_nil hname hattributes

/-- The tag of the root is read back. -/
theorem wellFormed_rootOpening (h : v.IsBindable) {name : String}
    (hname : isPlainName name.toList = true) {attributes : List (String × String)}
    (hattributes : AreAttributes (attributes.map Prod.fst)) :
    (v.rootOpening name attributes).WellFormed v.scope := by
  refine wellFormed_of_bindings h (isSome_of_qualifier h) (isLegal_of_mem_bindings h) ?_ hname
    hattributes
  cases v with
  | absent => exact List.nodup_nil
  | unprefixed uri => exact List.nodup_singleton _
  | prefixed name uri => exact List.nodup_singleton _

theorem head_opening (h : v.IsBindable) (name : String) (attributes : List (String × String)) :
    (v.opening name attributes).head v.scope = v.head name attributes := by
  have huri := uri?_scope h
  rw [Opening.head, opening, head]
  simp only [huri, List.map_map]
  rfl

end Vocabulary

section Rows

/-- An element around a row of nodes. With `asOne` it is written as one tag if the row is empty. -/
def Script.around (asOne : Bool) (o : Opening) (inner rest : Script) : Script :=
  match asOne, inner with
  | true, .done => .empty o rest
  | _, inner => .element o inner rest

theorem Script.nodes_around (asOne : Bool) (o : Opening) (inner rest : Script) (scope : Scope) :
    (Script.around asOne o inner rest).nodes scope =
      .element (o.head (o.scope scope)) (inner.nodes (o.scope scope)) :: rest.nodes scope := by
  -- Which way the element is written makes no difference to what it means.
  cases asOne <;> cases inner <;> rfl

theorem Script.wellFormed_around {o : Opening} {inner rest : Script} {scope : Scope}
    (ho : o.WellFormed (o.scope scope)) (hinner : inner.WellFormed (o.scope scope))
    (hrest : rest.WellFormed scope) (asOne : Bool) :
    (Script.around asOne o inner rest).WellFormed scope := by
  cases asOne with
  | false => exact ⟨ho, hinner, hrest⟩
  | true =>
      cases inner with
      | done => exact ⟨ho, hrest⟩
      | text content more => exact ⟨ho, hinner, hrest⟩
      | empty opening more => exact ⟨ho, hinner, hrest⟩
      | element opening content more => exact ⟨ho, hinner, hrest⟩

namespace Vocabulary

variable {α : Type}

/-- Elements of one name, one for each of some things. -/
def row (v : Vocabulary) (asOne : Bool) (name : String) (attributes : α → List (String × String))
    (inner : α → Script) : List α → Script
  | [] => .done
  | a :: as =>
      Script.around asOne (v.opening name (attributes a)) (inner a)
        (row v asOne name attributes inner as)

variable {v : Vocabulary} (h : v.IsBindable) (asOne : Bool) {name : String}
  {attributes : α → List (String × String)} {inner : α → Script}

include h

/-- A row means an element of the name for each of the things. -/
theorem nodes_row {content : α → List Node} (hcontent : ∀ a, (inner a).nodes v.scope = content a)
    (as : List α) :
    (v.row asOne name attributes inner as).nodes v.scope =
      as.map fun a => .element (v.head name (attributes a)) (content a) := by
  induction as with
  | nil => rfl
  | cons a as ih =>
      have hscope : (v.opening name (attributes a)).scope v.scope = v.scope := rfl
      rw [row, Script.nodes_around, hscope, head_opening h, hcontent, ih, List.map_cons]

theorem wellFormed_row (hname : isPlainName name.toList = true)
    (hattributes : ∀ a, AreAttributes ((attributes a).map Prod.fst))
    (hinner : ∀ a, (inner a).WellFormed v.scope) (as : List α) :
    (v.row asOne name attributes inner as).WellFormed v.scope := by
  induction as with
  | nil => exact trivial
  | cons a as ih =>
      have hopening : Opening.WellFormed ((v.opening name (attributes a)).scope v.scope)
          (v.opening name (attributes a)) := wellFormed_opening h hname (hattributes a)
      exact Script.wellFormed_around hopening (hinner a) ih asOne

end Vocabulary

end Rows

end Markup

end PackageSymbols

import PackageSymbols.Markup.Event
import PackageSymbols.Proofs.Markup.Writing

/-!
# Written Tags Say What They Should

A written tag is read in two passes, first for the namespaces that it binds and
then for its attributes, and both passes see all attributes. The bindings come
first in the text, so the scope grows by each of them and is not changed by what
follows; and an attribute of the element is told from a binding by its key.

Where the attributes are does not matter for either pass, so what is shown here
is shown of all attributes with given keys and values.

## Main definitions

* `RawAttribute.pair`: The key and the value of an attribute that was read.

## Theorems

* `declare_of_pairs`: The bindings of a tag are declared, and nothing else is.
* `elementName_chars`, `attributeName_chars`: Names are read back.
* `readTag_chars`: A tag says what it should.
-/

namespace PackageSymbols

namespace Markup

open Text

/-- The key and the value of an attribute. -/
def RawAttribute.pair (a : RawAttribute) : Pair :=
  (a.key, a.value)

theorem map_pair_located (offset : Nat) (as : List Pair) :
    (located offset as).map RawAttribute.pair = as := by
  induction as generalizing offset with
  | nil => rfl
  | cons a as ih =>
      rw [located, List.map_cons, ih]
      rfl

section Declarations

theorem ofKey?_pair (b : Binding) :
    Declaration.ofKey? b.pair.1 = some (if b.name = "" then .unprefixed else .prefixed b.name) := by
  rw [Binding.pair]
  by_cases hname : b.name = ""
  · rw [if_pos hname, if_pos hname]
    rfl
  · rw [if_neg hname, if_neg hname]
    have hkey : Declaration.ofKey? ("xmlns:".toList ++ b.name.toList) =
        some (.prefixed (String.ofList b.name.toList)) := rfl
    rw [hkey, String.ofList_toList]

theorem dropStart?_eq_some {front cs rest : List Char} (h : dropStart? front cs = some rest) :
    cs = front ++ rest := by
  induction front generalizing cs with
  | nil => exact Option.some.inj h
  | cons c front ih =>
      rcases cs with _ | ⟨d, ds⟩
      · exact absurd h (by simp only [dropStart?, reduceCtorEq, not_false_eq_true])
      · rw [dropStart?] at h
        by_cases hd : d = c
        · rw [if_pos hd] at h
          rw [ih h, hd]
          rfl
        · rw [if_neg hd] at h
          exact absurd h (by simp only [reduceCtorEq, not_false_eq_true])

theorem IsNamePart.bne_colon {name : List Char} (h : IsNamePart name) :
    ∀ c ∈ name, (c != ':') = true :=
  fun c hc => bne_iff_ne.mpr (h.unqualified c hc)

/-- The key of an attribute declares nothing. -/
theorem ofKey?_chars {scope : Scope} {l : Label} (h : l.IsAttribute scope) :
    Declaration.ofKey? l.chars = none := by
  have hcolon : (':' != ':') = false := rfl
  have hpart := h.plain.part.bne_colon
  rw [Declaration.ofKey?]
  split
  · -- The whole key would be the word.
    next hkey =>
      have hchars := dropStart?_eq_some hkey
      rcases l with ⟨_ | q, part⟩
      · refine absurd (String.toList_inj.mp ?_) (h.part rfl)
        exact hchars.trans (List.append_nil _)
      · have hmem : ':' ∈ Label.chars ⟨some q, part⟩ :=
          List.mem_append_right _ List.mem_cons_self
        rw [hchars] at hmem
        exact absurd hmem (by decide)
  · -- The word and a colon would be in front of the key.
    next name hkey =>
      have hchars := dropStart?_eq_some hkey
      rcases l with ⟨_ | q, part⟩
      · have hmem : ':' ∈ part.toList := by
          rw [show part.toList = _ from hchars]
          exact List.mem_append_right _ List.mem_cons_self
        exact absurd (hpart ':' hmem) (by decide)
      · have hq := (h.plain.qualifier q rfl).bne_colon
        have hfront : (q.toList ++ ':' :: part.toList).takeWhile (· != ':') =
            "xmlns".toList := by
          rw [show q.toList ++ ':' :: part.toList = _ from hchars]
          rfl
        rw [takeWhile_append_cons hq hcolon] at hfront
        exact absurd (congrArg some (String.toList_inj.mp hfront)) h.qualifier
  · rfl

/-- The bindings of a tag are declared, and its attributes declare nothing. -/
theorem declare_of_pairs {bindings : List Binding} (hbindings : ∀ b ∈ bindings, b.IsLegal)
    {scope : Scope} {attributes : List (Label × String)}
    (hattributes : ∀ a ∈ attributes, a.1.IsAttribute scope) {raws : List RawAttribute}
    (hraws : raws.map RawAttribute.pair =
      bindings.map Binding.pair ++ attributes.map attributePair) (outer : Scope) :
    outer.declare raws = .ok (bindings.reverse ++ outer) := by
  -- The bindings come first, so the induction is on them, and then on the attributes.
  induction bindings generalizing raws outer with
  | nil =>
      rw [List.map_nil, List.nil_append] at hraws
      induction attributes generalizing raws with
      | nil =>
          rw [List.map_eq_nil_iff.mp hraws]
          rfl
      | cons a attributes ih =>
          rcases List.map_eq_cons_iff.mp hraws with ⟨raw, rest, rfl, hraw, hrest⟩
          have hkey : raw.key = a.1.chars := congrArg Prod.fst hraw
          rw [Scope.declare, hkey, ofKey?_chars (hattributes a List.mem_cons_self)]
          exact ih (fun b hb => hattributes b (List.mem_cons_of_mem a hb)) hrest
  | cons b bindings ih =>
      rcases List.map_eq_cons_iff.mp hraws with ⟨raw, rest, rfl, hraw, hrest⟩
      have hkey : raw.key = b.pair.1 := congrArg Prod.fst hraw
      have hvalue : raw.value = b.uri.toList := congrArg Prod.snd hraw
      have hlegal := hbindings b List.mem_cons_self
      have hone : outer.declareOne b.uri (if b.name = "" then .unprefixed else .prefixed b.name) =
          .ok (b :: outer) := by
        -- A default namespace may be anything; a prefix must not be one of those that are reserved.
        by_cases hname : b.name = ""
        · rw [if_pos hname, Scope.declareOne, ← hname]
        · have hfree := hlegal.name hname
          have huri := hlegal.unreserved hname
          rw [if_neg hname, Scope.declareOne, if_neg hfree.2.1, if_neg hfree.2.2,
            if_neg (not_or.mpr huri)]
      rw [Scope.declare, hkey, ofKey?_pair, hvalue, String.ofList_toList]
      simp only [hone, bind, Except.bind]
      rw [ih (fun c hc => hbindings c (List.mem_cons_of_mem b hc)) hrest, List.reverse_cons,
        List.append_assoc]
      rfl

end Declarations

section Names

theorem splitName_part {part : List Char} (h : IsNamePart part) :
    splitName part = (none, part) := by
  rw [splitName, List.dropWhile_eq_nil_iff.mpr h.bne_colon]

theorem splitName_qualified {q : List Char} (h : IsNamePart q) (part : List Char) :
    splitName (q ++ ':' :: part) = (some q, part) := by
  have hq := h.bne_colon
  have hcolon : (':' != ':') = false := rfl
  rw [splitName, dropWhile_append_cons hq hcolon, takeWhile_append_cons hq hcolon]

theorem prefixUri_of_uri? {scope : Scope} {q uri : String} (hplain : IsNamePart q.toList)
    (hbound : scope.uri? q = some uri) : scope.prefixUri q.toList = .ok uri := by
  have hne : q.toList.isEmpty = false :=
    List.isEmpty_eq_false_iff.mpr hplain.isTagName.nonempty
  rw [Scope.prefixUri, hne, if_neg Bool.false_ne_true, String.ofList_toList, hbound]

/-- The name of an element is read back in the namespace of its prefix. -/
theorem elementName_chars {scope : Scope} {l : Label} (h : l.IsPlain)
    (hbound : ∀ q ∈ l.qualifier, (scope.uri? q).isSome) :
    scope.elementName l.chars = .ok (scope.uri? (l.qualifier.getD ""), l.part) := by
  rcases l with ⟨_ | q, part⟩
  · rw [Label.chars, Scope.elementName, splitName_part h.part]
    simp only [String.ofList_toList, Option.getD_none]
  · rcases Option.isSome_iff_exists.mp (hbound q rfl) with ⟨uri, huri⟩
    have hplain := h.qualifier q rfl
    rw [Label.chars, Scope.elementName, splitName_qualified hplain]
    simp only [prefixUri_of_uri? hplain huri, String.ofList_toList, Option.getD_some, huri]
    rfl

/-- The name of an attribute is read back, in no namespace without a prefix. -/
theorem attributeName_chars {scope : Scope} {l : Label} (h : l.IsAttribute scope) :
    scope.attributeName l.chars = .ok (l.qualifier.bind scope.uri?, l.part) := by
  rcases l with ⟨_ | q, part⟩
  · rw [Label.chars, Scope.attributeName, splitName_part h.plain.part]
    simp only [String.ofList_toList, Option.bind_none]
  · rcases Option.isSome_iff_exists.mp (h.bound q rfl) with ⟨uri, huri⟩
    have hplain := h.plain.qualifier q rfl
    rw [Label.chars, Scope.attributeName, splitName_qualified hplain]
    simp only [prefixUri_of_uri? hplain huri, String.ofList_toList, Option.bind_some, huri]
    rfl

end Names

section Reading

theorem readAttribute_of_pair {scope : Scope} {a : Label × String} (h : a.1.IsAttribute scope)
    {raw : RawAttribute} (hraw : raw.pair = attributePair a) :
    readAttribute scope raw = .ok (some (attributeIn scope a)) := by
  have hkey : raw.key = a.1.chars := congrArg Prod.fst hraw
  have hvalue : raw.value = escape a.2.toList := congrArg Prod.snd hraw
  rw [readAttribute, hkey, ofKey?_chars h]
  simp only [attributeName_chars h, hvalue, resolve_escape]
  rfl

theorem readAttribute_of_binding (scope : Scope) {b : Binding} {raw : RawAttribute}
    (hraw : raw.pair = b.pair) : readAttribute scope raw = .ok none := by
  have hkey : raw.key = b.pair.1 := congrArg Prod.fst hraw
  rw [readAttribute, hkey, ofKey?_pair]

/-- The attributes of a tag are read back; bindings are none of them. -/
theorem mapM_readAttribute_of_pairs {scope : Scope} {attributes : List (Label × String)}
    (hattributes : ∀ a ∈ attributes, a.1.IsAttribute scope) {bindings : List Binding}
    {raws : List RawAttribute} (hraws : raws.map RawAttribute.pair =
      bindings.map Binding.pair ++ attributes.map attributePair) :
    raws.mapM (readAttribute scope) = .ok
      (bindings.map (fun _ => none) ++ attributes.map fun a => some (attributeIn scope a)) := by
  -- Bindings come first and are no attributes; the inner induction starts behind them.
  induction bindings generalizing raws with
  | nil =>
      rw [List.map_nil, List.nil_append] at hraws
      rw [List.map_nil, List.nil_append]
      induction attributes generalizing raws with
      | nil =>
          rw [List.map_eq_nil_iff.mp hraws]
          rfl
      | cons a attributes ih =>
          rcases List.map_eq_cons_iff.mp hraws with ⟨raw, rest, rfl, hraw, hrest⟩
          rw [List.mapM_cons, readAttribute_of_pair (hattributes a List.mem_cons_self) hraw,
            ih (fun b hb => hattributes b (List.mem_cons_of_mem a hb)) hrest]
          rfl
  | cons b bindings ih =>
      rcases List.map_eq_cons_iff.mp hraws with ⟨raw, rest, rfl, hraw, hrest⟩
      rw [List.mapM_cons, readAttribute_of_binding scope hraw, ih hrest]
      rfl

theorem filterMap_id_attributes (bindings : List Binding) (attributes : List Attribute) :
    ((bindings.map fun _ => none) ++ attributes.map some).filterMap id = attributes := by
  induction bindings with
  | nil =>
      rw [List.map_nil, List.nil_append, List.filterMap_map]
      exact List.filterMap_some
  | cons b bindings ih => exact ih

/-- What a tag says in its own scope. -/
theorem readHead_chars {scope : Scope} {o : Opening} (h : o.WellFormed scope)
    (position : Position) :
    readHead scope { name := o.label.chars, remainder := attributesChars o.pairs } position =
      .ok { o.head scope with position := position } := by
  have hpairs : (located (utf8Length o.label.chars) o.pairs).map RawAttribute.pair =
      o.bindings.map Binding.pair ++ o.attributes.map attributePair :=
    map_pair_located _ o.pairs
  have hread := mapM_readAttribute_of_pairs h.attributes hpairs
  have hdistinct := distinctAttributes_tag h.isWritable h.distinct o.label.chars
  have htraverse := Reading.toExcept_traverse_of_fault_none (readAttribute scope) _
    (congrArg Reading.fault hdistinct)
  have hitems : (Tag.distinctAttributes
      { name := o.label.chars, remainder := attributesChars o.pairs }).items =
      located (utf8Length o.label.chars) o.pairs := congrArg Reading.items hdistinct
  -- The places of the bindings are dropped from what was read.
  have hkept := filterMap_id_attributes o.bindings (o.attributes.map (attributeIn scope))
  rw [List.map_map] at hkept
  rw [hitems, hread] at htraverse
  simp only [readHead, elementName_chars h.label h.bound, htraverse, bind, Except.bind, pure,
    Except.pure]
  exact congrArg (fun attributes => Except.ok
    { o.head scope with attributes := attributes, position := position }) hkept

/-- A tag says what it should, at the position where it stands. -/
theorem readTag_chars {outer : Scope} {o : Opening} (h : o.WellFormed (o.scope outer))
    (offset : Nat) (position : Position) :
    readTag outer offset position { name := o.label.chars, remainder := attributesChars o.pairs } =
      .ok (o.scope outer, { o.head (o.scope outer) with position := position }) := by
  have hdeclare : outer.declare (located (utf8Length o.label.chars) o.pairs) =
      .ok (o.scope outer) :=
    declare_of_pairs h.bindings h.attributes (map_pair_located _ o.pairs) outer
  -- The first pass lets keys repeat, and finds the same attributes as the second.
  rw [readTag, attributes_tag h.isWritable]
  simp only [hdeclare, readHead_chars h]

end Reading

end Markup

end PackageSymbols

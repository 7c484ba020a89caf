import Mathlib.Data.List.TakeWhile
import PackageSymbols.Proofs.Scanning
import PackageSymbols.Markup.Tag

/-!
# Tags That Are Written

A tag is written as its name and, for each attribute, a space, the key and the
value in double quotes. Two readers go over such a text. The first looks for the
`>` that ends the tag, and skips what is in quotes; the second takes the
attributes apart. Both come out where the writer was, provided that names hold
no character that means something in a tag, and values no double quote.

The first reader carries the quote that is open. `Crosses` says that it passes a
text without stopping, from one open quote to another, so that the texts of a
tag are passed one after the other.

## Main definitions

* `isInert`: The characters that mean nothing in a tag.
* `attributesChars`, `tagChars`: The text of attributes, and of a tag.
* `IsWritable`: Attributes that are read back.
* `Crosses`: The search for the end of a tag passes a text.

## Theorems

* `splitOutsideQuotes_of_crosses`: What is passed is in front of the `>`.
* `crosses_tagChars`: A tag is passed.
* `attributesFrom_attributesChars`: Attributes are read back.
* `tagPiece_tagChars`: The pieces that written tags are.
-/

namespace PackageSymbols

namespace Markup

open Text

/-- Whether a character means nothing in a tag but itself. -/
def isInert (c : Char) : Bool :=
  !isSeparator c && !(['=', '/', '<', '>', '"', '\''].contains c)

/-- A key and a value as they stand in a tag. -/
abbrev Pair := List Char × List Char

/-- The text of an attribute. -/
def attributeChars (a : Pair) : List Char :=
  ' ' :: (a.1 ++ '=' :: '"' :: (a.2 ++ ['"']))

/-- The text of attributes. -/
def attributesChars (as : List Pair) : List Char :=
  as.flatMap attributeChars

/-- The content of a tag. -/
def tagChars (name : List Char) (as : List Pair) : List Char :=
  name ++ attributesChars as

/-- Whether a name can stand in a tag. -/
structure IsTagName (name : List Char) : Prop where
  /-- There is something. -/
  nonempty : name ≠ []
  /-- It has only characters that mean nothing. -/
  inert : ∀ c ∈ name, isInert c = true

/-- Whether an attribute is read back. -/
structure IsWritable (a : Pair) : Prop where
  /-- The key is a name. -/
  key : IsTagName a.1
  /-- The value does not end early. -/
  value : ∀ c ∈ a.2, c ≠ '"'

section Characters

variable {c : Char}

theorem isSeparator_of_isInert (h : isInert c = true) : isSeparator c = false := by
  rw [isInert, Bool.and_eq_true, Bool.not_eq_true'] at h
  exact h.1

theorem ne_of_isInert (h : isInert c = true) {d : Char}
    (hd : ['=', '/', '<', '>', '"', '\''].contains d = true) : c ≠ d := by
  rintro rfl
  rw [isInert, Bool.and_eq_true, hd] at h
  exact absurd h.2 Bool.false_ne_true

theorem isKeyPart_of_isInert (h : isInert c = true) : isKeyPart c = true := by
  rw [isKeyPart, isSeparator_of_isInert h, Bool.and_eq_true, bne_iff_ne]
  exact ⟨ne_of_isInert h rfl, rfl⟩

end Characters

section Ends

/-- Whether the search for the end of a tag passes a text, `quote` being open before it and
    `after` behind it. -/
def Crosses (quote : Option Char) : List Char → (after : Option Char) → Prop
  | [], after => quote = after
  | c :: cs, after => ¬(c = '>' ∧ quote = none) ∧ Crosses (nextQuote quote c) cs after

theorem Crosses.append {quote middle after : Option Char} {xs ys : List Char}
    (hxs : Crosses quote xs middle) (hys : Crosses middle ys after) :
    Crosses quote (xs ++ ys) after := by
  induction xs generalizing quote with
  | nil =>
      rw [Crosses] at hxs
      rw [hxs]
      exact hys
  | cons x xs ih => exact ⟨hxs.1, ih hxs.2⟩

theorem splitOutsideQuotes_crosses {quote after : Option Char} {xs : List Char}
    (h : Crosses quote xs after) (seen rest : List Char) :
    splitOutsideQuotes quote seen (xs ++ rest) =
      splitOutsideQuotes after (xs.reverse ++ seen) rest := by
  induction xs generalizing quote seen with
  | nil =>
      rw [Crosses] at h
      rw [h]
      rfl
  | cons x xs ih =>
      rw [List.cons_append, splitOutsideQuotes, if_neg h.1, ih h.2, List.reverse_cons,
        List.append_assoc]
      rfl

/-- What is passed with no quote open in the end is what stands in front of the `>`. -/
theorem splitOutsideQuotes_of_crosses {content : List Char} (h : Crosses none content none)
    (rest : List Char) :
    splitOutsideQuotes none [] (content ++ '>' :: rest) = some (content, rest) := by
  rw [splitOutsideQuotes_crosses h, splitOutsideQuotes, if_pos ⟨rfl, rfl⟩, List.append_nil,
    List.reverse_reverse]

theorem crosses_of_inert {name : List Char} (h : ∀ c ∈ name, isInert c = true) :
    Crosses none name none := by
  induction name with
  | nil => rfl
  | cons c cs ih =>
      have hc := h c List.mem_cons_self
      have hquote : nextQuote none c = none := by
        rw [nextQuote, if_neg]
        rintro (he | he)
        · exact ne_of_isInert hc rfl he
        · exact ne_of_isInert hc rfl he
      refine ⟨fun he => ne_of_isInert hc rfl he.1, ?_⟩
      rw [hquote]
      exact ih fun d hd => h d (List.mem_cons_of_mem c hd)

/-- Inside of quotes everything is passed but the quote. -/
theorem crosses_value {quote : Char} {value : List Char} (h : ∀ c ∈ value, c ≠ quote) :
    Crosses (some quote) value (some quote) := by
  induction value with
  | nil => rfl
  | cons c cs ih =>
      have hquote : nextQuote (some quote) c = some quote := by
        rw [nextQuote, if_neg (h c List.mem_cons_self)]
      -- With a quote open even a `>` is passed.
      refine ⟨fun he => absurd he.2 (by simp only [reduceCtorEq, not_false_eq_true]), ?_⟩
      rw [hquote]
      exact ih fun d hd => h d (List.mem_cons_of_mem c hd)

theorem crosses_attributeChars {a : Pair} (h : IsWritable a) :
    Crosses none (attributeChars a) none := by
  have hspace : Crosses none [' '] none := ⟨by decide, rfl⟩
  have hopening : Crosses none ['=', '"'] (some '"') := ⟨by decide, by decide, rfl⟩
  have hclosing : Crosses (some '"') ['"'] none := ⟨by decide, rfl⟩
  -- A quote is opened in front of the value and closed behind it.
  exact hspace.append ((crosses_of_inert h.key.inert).append
    (hopening.append ((crosses_value h.value).append hclosing)))

/-- The content of a tag is passed. -/
theorem crosses_tagChars {name : List Char} (hname : IsTagName name) {as : List Pair}
    (has : ∀ a ∈ as, IsWritable a) : Crosses none (tagChars name as) none := by
  refine (crosses_of_inert hname.inert).append ?_
  induction as with
  | nil => rfl
  | cons a as ih =>
      rw [attributesChars, List.flatMap_cons]
      exact (crosses_attributeChars (has a List.mem_cons_self)).append
        (ih fun b hb => has b (List.mem_cons_of_mem a hb))

end Ends

section Attributes

/-- Attributes with the offsets of their keys, the text of the attributes being at an offset. -/
def located (offset : Nat) : List Pair → List RawAttribute
  | [] => []
  | a :: as => ⟨offset + 1, a.1, a.2⟩ :: located (offset + utf8Length (attributeChars a)) as

theorem quotedValue_append {value : List Char} (h : ∀ c ∈ value, c ≠ '"') (offset : Nat)
    (rest : List Char) :
    quotedValue offset ('"' :: (value ++ '"' :: rest)) =
      .ok (value, offset + utf8Length value + 2, rest) := by
  have hgo : ∀ c ∈ value, (c != '"') = true := fun c hc => bne_iff_ne.mpr (h c hc)
  have hstop : ('"' != '"') = false := rfl
  have hquote : isSeparator '"' = false := rfl
  simp only [quotedValue, dropWhile_cons_of_false hquote, takeWhile_cons_of_false hquote,
    takeWhile_append_cons hgo hstop, dropWhile_append_cons hgo hstop, true_or, if_true,
    utf8Length_nil, Except.ok.injEq, Prod.mk.injEq, true_and, and_true]
  omega

/-- An attribute is taken apart from the first character of its key on. -/
theorem attributeAt_append {k : Char} {ks value : List Char} (hks : ∀ c ∈ ks, isInert c = true)
    (hvalue : ∀ c ∈ value, c ≠ '"') {earlier : List RawAttribute}
    (hearlier : ∀ e ∈ earlier, e.key ≠ k :: ks) (offset : Nat) (rest : List Char) :
    attributeAt earlier offset k (ks ++ '=' :: '"' :: (value ++ '"' :: rest)) =
      .ok (⟨offset, k :: ks, value⟩, offset + utf8Length (k :: ks) + utf8Length value + 3,
        rest) := by
  have hgo : ∀ c ∈ ks, isKeyPart c = true := fun c hc => isKeyPart_of_isInert (hks c hc)
  have hsign : isKeyPart '=' = false := rfl
  have hequals : isSeparator '=' = false := rfl
  -- The key is compared before the value is read, so this is known first.
  have hnew : previousOffset? (k :: ks) earlier = none := by
    rw [previousOffset?, Option.map_eq_none_iff, List.find?_eq_none]
    exact fun e he hkey => hearlier e he (beq_iff_eq.mp hkey)
  simp only [attributeAt, takeWhile_append_cons hgo hsign, dropWhile_append_cons hgo hsign,
    takeWhile_cons_of_false hequals, dropWhile_cons_of_false hequals, if_true, hnew,
    quotedValue_append hvalue, utf8Length_nil, bind, Except.bind, pure, Except.pure,
    Except.ok.injEq, Prod.mk.injEq, true_and, and_true]
  omega

theorem utf8Length_attributeChars (a : Pair) :
    utf8Length (attributeChars a) = utf8Length a.1 + utf8Length a.2 + 4 := by
  have hspace : (' ').utf8Size = 1 := rfl
  have hequals : ('=').utf8Size = 1 := rfl
  have hquote : ('"').utf8Size = 1 := rfl
  simp only [attributeChars, utf8Length_cons, utf8Length_append, utf8Length_nil, hspace, hequals,
    hquote]
  omega

/-- The first attribute of a written text is the one that was written first. -/
theorem nextAttribute_attributeChars {a : Pair} (h : IsWritable a) {earlier : List RawAttribute}
    (hearlier : ∀ e ∈ earlier, e.key ≠ a.1) (offset : Nat) (rest : List Char) :
    nextAttribute earlier offset (attributeChars a ++ rest) =
      some (.ok (⟨offset + 1, a.1, a.2⟩, offset + utf8Length (attributeChars a), rest)) := by
  rw [utf8Length_attributeChars]
  rcases a with ⟨key, value⟩
  cases key with
  | nil => exact absurd rfl h.key.nonempty
  | cons k ks =>
      have hk := isSeparator_of_isInert (h.key.inert k List.mem_cons_self)
      have htext : attributeChars (k :: ks, value) ++ rest =
          [' '] ++ k :: (ks ++ '=' :: '"' :: (value ++ '"' :: rest)) := by
        simp only [attributeChars, List.cons_append, List.append_assoc, List.nil_append]
      -- One space is skipped, and the key begins behind it.
      have hspace : ∀ c ∈ [' '], isSeparator c = true := by
        intro c hc
        rw [List.mem_singleton.mp hc]
        rfl
      have hread := attributeAt_append (fun c hc => h.key.inert c (List.mem_cons_of_mem k hc))
        h.value hearlier (offset + 1) rest
      have hwidth : offset + utf8Length [' '] = offset + 1 := rfl
      rw [htext, nextAttribute, dropWhile_append_cons hspace hk, takeWhile_append_cons hspace hk]
      simp only [hwidth, hread, Option.some.injEq, Except.ok.injEq, Prod.mk.injEq, true_and,
        and_true]
      omega

theorem attributesFrom_of_next {distinct : Bool} {earlier : List RawAttribute} {offset stop : Nat}
    {cs after : List Char} {a : RawAttribute}
    (h : nextAttribute earlier offset cs = some (.ok (a, stop, after))) :
    attributesFrom distinct earlier offset cs =
      .cons a (attributesFrom distinct (if distinct then earlier ++ [a] else []) stop after) := by
  rw [attributesFrom]
  split
  · next hnone =>
      rw [h] at hnone
      exact absurd hnone (by simp only [reduceCtorEq, not_false_eq_true])
  · next herror =>
      rw [h] at herror
      simp only [Option.some.injEq, reduceCtorEq] at herror
  · next hok =>
      rw [h] at hok
      simp only [Option.some.injEq, Except.ok.injEq, Prod.mk.injEq] at hok
      rw [hok.1, hok.2.1, hok.2.2]

/-- Attributes are read back. Where keys have to be distinct they are, among one another and from
    those of earlier attributes. -/
theorem attributesFrom_attributesChars {as : List Pair} (has : ∀ a ∈ as, IsWritable a)
    {distinct : Bool} (hdistinct : distinct = true → (as.map Prod.fst).Nodup)
    {earlier : List RawAttribute} (hearlier : ∀ a ∈ as, ∀ e ∈ earlier, e.key ≠ a.1) (offset : Nat) :
    attributesFrom distinct earlier offset (attributesChars as) =
      { items := located offset as, fault := none } := by
  induction as generalizing earlier offset with
  | nil =>
      rw [attributesChars, List.flatMap_nil, attributesFrom]
      rfl
  | cons a as ih =>
      have hnext := nextAttribute_attributeChars (has a List.mem_cons_self)
        (hearlier a List.mem_cons_self) offset (attributesChars as)
      -- Where repetition is a fault the attribute joins the earlier ones; elsewhere nothing does.
      have hrest : ∀ b ∈ as, ∀ e ∈ (if distinct then earlier ++ [⟨offset + 1, a.1, a.2⟩] else []),
          e.key ≠ b.1 := by
        intro b hb e he
        cases hmode : distinct with
        | false =>
            rw [hmode, if_neg Bool.false_ne_true] at he
            exact absurd he List.not_mem_nil
        | true =>
            rw [hmode, if_pos rfl, List.mem_append, List.mem_singleton] at he
            rcases he with he | rfl
            · exact hearlier b (List.mem_cons_of_mem a hb) e he
            · have hnodup := hdistinct hmode
              rw [List.map_cons, List.nodup_cons] at hnodup
              intro hkey
              have hmem : b.1 ∈ as.map Prod.fst := List.mem_map_of_mem hb
              rw [← hkey] at hmem
              exact hnodup.1 hmem
      have hcons : attributesChars (a :: as) = attributeChars a ++ attributesChars as :=
        List.flatMap_cons
      rw [hcons, attributesFrom_of_next hnext]
      have hih := ih (fun b hb => has b (List.mem_cons_of_mem a hb))
        (fun hmode => (List.nodup_cons.mp (hdistinct hmode)).2) hrest
        (offset + utf8Length (attributeChars a))
      rw [hih]
      rfl

theorem attributes_tag {as : List Pair} (has : ∀ a ∈ as, IsWritable a) (name : List Char) :
    Tag.attributes { name := name, remainder := attributesChars as } =
      { items := located (utf8Length name) as, fault := none } :=
  attributesFrom_attributesChars has (fun he => absurd he Bool.false_ne_true)
    (fun _ _ _ he => absurd he List.not_mem_nil) (utf8Length name)

theorem distinctAttributes_tag {as : List Pair} (has : ∀ a ∈ as, IsWritable a)
    (hdistinct : (as.map Prod.fst).Nodup) (name : List Char) :
    Tag.distinctAttributes { name := name, remainder := attributesChars as } =
      { items := located (utf8Length name) as, fault := none } :=
  attributesFrom_attributesChars has (fun _ => hdistinct)
    (fun _ _ _ he => absurd he List.not_mem_nil) (utf8Length name)

theorem ofContent_tagChars {name : List Char} (hname : IsTagName name) (as : List Pair) :
    Tag.ofContent (tagChars name as) = { name := name, remainder := attributesChars as } := by
  have hgo : ∀ c ∈ name, (!isSeparator c) = true := by
    intro c hc
    rw [isSeparator_of_isInert (hname.inert c hc)]
    rfl
  have hspace : (!isSeparator ' ') = false := rfl
  cases as with
  | nil =>
      have hall : tagChars name [] = name := List.append_nil name
      rw [hall, Tag.ofContent, List.takeWhile_eq_self_iff.mpr hgo,
        List.dropWhile_eq_nil_iff.mpr hgo]
      rfl
  | cons a as =>
      -- The space in front of the first attribute ends the name.
      have hfirst : attributesChars (a :: as) =
          ' ' :: (a.1 ++ '=' :: '"' :: (a.2 ++ ['"']) ++ attributesChars as) := rfl
      rw [tagChars, hfirst, Tag.ofContent, takeWhile_append_cons hgo hspace,
        dropWhile_append_cons hgo hspace]

end Attributes

section Pieces

variable {name : List Char} (hname : IsTagName name)

include hname

theorem ne_slash_of_tagChars (as : List Pair) (more rest : List Char) :
    tagChars name as ++ more ≠ '/' :: rest := by
  rcases name with _ | ⟨c, cs⟩
  · exact absurd rfl hname.nonempty
  · intro he
    exact ne_of_isInert (hname.inert c List.mem_cons_self) rfl (List.cons.inj he).1

/-- The content of a tag does not end in a slash, as the tag of an empty element would. -/
theorem reverse_tagChars_ne (as : List Pair) (front : List Char) :
    (tagChars name as).reverse ≠ '/' :: front := by
  rcases List.eq_nil_or_concat as with rfl | ⟨init, a, rfl⟩
  · intro he
    have hall : tagChars name [] = name := List.append_nil name
    -- The slash would be the last character of the name.
    have hslash : '/' ∈ name := by
      rw [← List.mem_reverse, ← hall, he]
      exact List.mem_cons_self
    exact ne_of_isInert (hname.inert '/' hslash) rfl rfl
  · rw [List.concat_eq_append, tagChars, attributesChars, List.flatMap_append, List.reverse_append,
      List.reverse_append]
    intro he
    -- The last character is the quote behind the last value.
    have hquote : ([a].flatMap attributeChars).reverse =
        '"' :: (' ' :: (a.1 ++ '=' :: '"' :: a.2)).reverse := by
      simp only [attributeChars, List.flatMap_cons, List.flatMap_nil, List.append_nil,
        List.reverse_cons, List.reverse_append, List.reverse_nil, List.nil_append,
        List.cons_append, List.append_assoc]
    rw [hquote] at he
    exact absurd (List.cons.inj he).1 (by decide)

theorem tagPiece_tagChars (as : List Pair) :
    tagPiece (tagChars name as) = .startTag (tagChars name as) := by
  rw [tagPiece]
  · split
    · next hreverse => exact absurd hreverse (reverse_tagChars_ne hname as _)
    · rfl
  · intro rest he
    refine ne_slash_of_tagChars hname as [] rest ?_
    rw [List.append_nil]
    exact he

theorem tagPiece_empty (as : List Pair) :
    tagPiece (tagChars name as ++ ['/']) = .emptyTag (tagChars name as) := by
  have hreverse : (tagChars name as ++ ['/']).reverse = '/' :: (tagChars name as).reverse := by
    rw [List.reverse_append]
    rfl
  rw [tagPiece]
  -- The slash at the end goes, and it is not one at the beginning.
  · rw [hreverse]
    simp only [List.reverse_reverse]
  · exact ne_slash_of_tagChars hname as ['/']

theorem tagPiece_end : tagPiece ('/' :: name) = .endTag name := by
  have hinert : ∀ c ∈ name.reverse, isSeparator c = false := fun c hc =>
    isSeparator_of_isInert (hname.inert c (List.mem_reverse.mp hc))
  have hsome : name.all isSeparator = false := by
    rcases name with _ | ⟨c, cs⟩
    · exact absurd rfl hname.nonempty
    · rw [List.all_cons, isSeparator_of_isInert (hname.inert c List.mem_cons_self),
        Bool.false_and]
  have hkept : (name.reverse.dropWhile isSeparator).reverse = name := by
    rcases hreverse : name.reverse with _ | ⟨c, cs⟩
    · exact absurd (List.reverse_eq_nil_iff.mp hreverse) hname.nonempty
    · rw [dropWhile_cons_of_false (hinert c (by rw [hreverse]; exact List.mem_cons_self)),
        ← hreverse, List.reverse_reverse]
  rw [tagPiece]
  simp only [endTagName, hsome, hkept, Bool.false_eq_true, if_false]

end Pieces

section Cutting

theorem ofStart_eq_tag {c : Char} (hbang : c ≠ '!') (hquestion : c ≠ '?') (rest : List Char) :
    Kind.ofStart (c :: rest) = some .tag := by
  rw [Kind.ofStart]
  -- Each other kind begins with one of the two characters.
  all_goals intros
  all_goals rename_i he
  all_goals first
    | exact hbang (List.cons.inj he).1
    | exact hquestion (List.cons.inj he).1

/-- Whether a run of text ends in front of what follows: there is markup or nothing. -/
def EndsText (rest : List Char) : Prop :=
  ∀ c cs, rest = c :: cs → c = '<'

/-- A run of text is one piece. -/
theorem pieces_text {run rest : List Char} (hne : run ≠ []) (hrun : ∀ c ∈ run, c ≠ '<')
    (hrest : EndsText rest) (offset : Nat) :
    pieces offset (run ++ rest) =
      .cons ⟨offset, .text run⟩ (pieces (offset + utf8Length run) rest) := by
  rcases run with _ | ⟨c, cs⟩
  · exact absurd rfl hne
  · have hgo : ∀ d ∈ cs, (d != '<') = true := fun d hd =>
      bne_iff_ne.mpr (hrun d (List.mem_cons_of_mem c hd))
    -- The run ends where the text does, or at the `<` behind it.
    have htake : (cs ++ rest).takeWhile (· != '<') = cs := by
      rcases rest with _ | ⟨d, ds⟩
      · rw [List.append_nil, List.takeWhile_eq_self_iff]
        exact hgo
      · rw [hrest d ds rfl]
        exact takeWhile_append_cons hgo rfl ds
    have hdrop : (cs ++ rest).dropWhile (· != '<') = rest := by
      rcases rest with _ | ⟨d, ds⟩
      · rw [List.append_nil, List.dropWhile_eq_nil_iff]
        exact hgo
      · rw [hrest d ds rfl]
        exact dropWhile_append_cons hgo rfl ds
    rw [List.cons_append, pieces, if_neg (hrun c List.mem_cons_self), htake, hdrop]

end Cutting

end Markup

end PackageSymbols

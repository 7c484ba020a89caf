import PackageSymbols.Markup.Piece

/-!
# Names and Attributes in a Tag

The content of a tag is a name, up to the first separator, and then attributes:
a key, an equals sign and a value in quotes, with separators allowed around the
sign. Values are taken as they are written. Nothing separates an attribute from
the one before it but the closing quote.

The attributes of a tag are read twice: once for the namespaces that the tag
declares, where a repeated key does no harm, and once for the attributes of the
element, where it is a fault. The fault of a repeated key is noticed as soon as
the equals sign is seen, before the value is looked at, so the check is part of
reading and not a second pass.

## Main definitions

* `RawAttribute`: An attribute as written, with the offset of its key.
* `nextAttribute`, `attributesFrom`: The first and all attributes of a text.
* `Tag`, `Tag.ofContent`: A name and the text of the attributes.
* `Tag.attributes`, `Tag.distinctAttributes`: The two readings of a tag.

## Theorems

* `length_lt_of_nextAttribute`: Reading an attribute uses up text.
-/

namespace PackageSymbols

namespace Markup

open Text

/-- An attribute as written in a tag. -/
structure RawAttribute where
  /-- Bytes of the content of the tag before the key. -/
  offset : Nat
  /-- The name, with its prefix. -/
  key : List Char
  /-- The text between the quotes. -/
  value : List Char
deriving DecidableEq, Repr

/-- Where an earlier attribute of the same key begins. -/
def previousOffset? (key : List Char) (earlier : List RawAttribute) : Option Nat :=
  (earlier.find? fun a => a.key == key).map (·.offset)

/-- Whether a character belongs to the key of an attribute, unless it is its first. -/
def isKeyPart (c : Char) : Bool :=
  c != '=' && !isSeparator c

/-- Reads the value after the equals sign of an attribute: separators, then a text in quotes.
    The answer holds the value, the offset after it and the text after it. -/
def quotedValue (offset : Nat) (cs : List Char) : Except Cause (List Char × Nat × List Char) :=
  let start := offset + utf8Length (cs.takeWhile isSeparator)
  match cs.dropWhile isSeparator with
  | [] => .error (.attributeWithoutValue start)
  | quote :: rest =>
      if quote = '"' ∨ quote = '\'' then
        let value := rest.takeWhile (· != quote)
        let stop := start + 1 + utf8Length value
        match rest.dropWhile (· != quote) with
        | [] => .error (.attributeUnclosed stop quote)
        | _ :: after => .ok (value, stop + 1, after)
      else .error (.attributeUnquoted start)

/-- Reads the attribute whose key begins the text. The key must differ from those of `earlier`
    attributes. -/
def attributeAt (earlier : List RawAttribute) (offset : Nat) (first : Char) (cs : List Char) :
    Except Cause (RawAttribute × Nat × List Char) :=
  let key := first :: cs.takeWhile isKeyPart
  let rest := cs.dropWhile isKeyPart
  let sign := offset + utf8Length key + utf8Length (rest.takeWhile isSeparator)
  match rest.dropWhile isSeparator with
  | [] => .error (.attributeWithoutEquals sign)
  | c :: rest =>
      if c = '=' then
        match previousOffset? key earlier with
        | some previous => .error (.attributeRepeated offset previous)
        | none => do
            let (value, stop, rest) ← quotedValue (sign + 1) rest
            return (⟨offset, key, value⟩, stop, rest)
      else .error (.attributeWithoutEquals sign)

/-- Reads the first attribute of a text, if it holds more than separators. -/
def nextAttribute (earlier : List RawAttribute) (offset : Nat) (cs : List Char) :
    Option (Except Cause (RawAttribute × Nat × List Char)) :=
  match cs.dropWhile isSeparator with
  | [] => none
  | first :: rest =>
      some (attributeAt earlier (offset + utf8Length (cs.takeWhile isSeparator)) first rest)

theorem length_dropWhile_le (p : Char → Bool) (cs : List Char) :
    (cs.dropWhile p).length ≤ cs.length :=
  (List.dropWhile_sublist p).length_le

theorem length_le_of_quotedValue {offset : Nat} {cs value after : List Char} {stop : Nat}
    (h : quotedValue offset cs = .ok (value, stop, after)) : after.length ≤ cs.length := by
  have hcs := length_dropWhile_le isSeparator cs
  unfold quotedValue at h
  split at h
  · exact absurd h (by simp only [reduceCtorEq, not_false_eq_true])
  · next quote rest hrest =>
      have hq := length_dropWhile_le (· != quote) rest
      rw [hrest] at hcs
      split at h
      · split at h
        · exact absurd h (by simp only [reduceCtorEq, not_false_eq_true])
        · next hafter =>
            simp only [Except.ok.injEq, Prod.mk.injEq] at h
            rw [hafter, h.2.2] at hq
            simp only [List.length_cons] at hq hcs
            omega
      · exact absurd h (by simp only [reduceCtorEq, not_false_eq_true])

theorem length_le_of_attributeAt {earlier : List RawAttribute} {offset stop : Nat} {first : Char}
    {cs after : List Char} {a : RawAttribute}
    (h : attributeAt earlier offset first cs = .ok (a, stop, after)) :
    after.length ≤ cs.length := by
  have hkey := length_dropWhile_le isKeyPart cs
  have hsep := length_dropWhile_le isSeparator (cs.dropWhile isKeyPart)
  simp only [attributeAt] at h
  split at h
  · exact absurd h (by simp only [reduceCtorEq, not_false_eq_true])
  · next c rest hrest =>
      rw [hrest, List.length_cons] at hsep
      split at h
      · split at h
        · exact absurd h (by simp only [reduceCtorEq, not_false_eq_true])
        · rcases hv : quotedValue (offset + utf8Length (first :: cs.takeWhile isKeyPart) +
              utf8Length ((cs.dropWhile isKeyPart).takeWhile isSeparator) + 1) rest with
            e | ⟨value, stop', after'⟩
          · rw [hv] at h
            exact absurd h (by simp only [bind, Except.bind, reduceCtorEq, not_false_eq_true])
          · have := length_le_of_quotedValue hv
            rw [hv] at h
            simp only [bind, Except.bind, pure, Except.pure, Except.ok.injEq,
              Prod.mk.injEq] at h
            rw [← h.2.2]
            omega
      · exact absurd h (by simp only [reduceCtorEq, not_false_eq_true])

/-- Reading an attribute uses up text. -/
theorem length_lt_of_nextAttribute {earlier : List RawAttribute} {offset stop : Nat}
    {cs after : List Char} {a : RawAttribute}
    (h : nextAttribute earlier offset cs = some (.ok (a, stop, after))) :
    after.length < cs.length := by
  have hcs := length_dropWhile_le isSeparator cs
  unfold nextAttribute at h
  split at h
  · exact absurd h (by simp only [reduceCtorEq, not_false_eq_true])
  · next first rest hrest =>
      rw [hrest, List.length_cons] at hcs
      have := length_le_of_attributeAt (Option.some.inj h)
      omega

/-- The attributes of a text. With `distinct`, a key that was there before is a fault. -/
def attributesFrom (distinct : Bool) (earlier : List RawAttribute) (offset : Nat)
    (cs : List Char) : Reading Cause RawAttribute :=
  match _h : nextAttribute earlier offset cs with
  | none => .done
  | some (.error cause) => .fail cause
  | some (.ok (a, stop, after)) =>
      .cons a (attributesFrom distinct (if distinct then earlier ++ [a] else []) stop after)
termination_by cs.length
decreasing_by exact length_lt_of_nextAttribute _h

/-- A tag, cut into its name and the text of its attributes. -/
structure Tag where
  /-- The name, with its prefix; it may be empty. -/
  name : List Char
  /-- What follows the name. -/
  remainder : List Char
deriving DecidableEq, Repr

/-- Cuts the content of a tag at the first separator. -/
def Tag.ofContent (content : List Char) : Tag where
  name := content.takeWhile fun c => !isSeparator c
  remainder := content.dropWhile fun c => !isSeparator c

/-- The attributes of a tag, up to the first malformed one. -/
def Tag.attributes (tag : Tag) : Reading Cause RawAttribute :=
  attributesFrom false [] (utf8Length tag.name) tag.remainder

/-- The attributes of a tag, up to the first that is malformed or repeated. -/
def Tag.distinctAttributes (tag : Tag) : Reading Cause RawAttribute :=
  attributesFrom true [] (utf8Length tag.name) tag.remainder

end Markup

end PackageSymbols

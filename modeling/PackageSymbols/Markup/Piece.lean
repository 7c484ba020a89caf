import PackageSymbols.Markup.Fault
import PackageSymbols.Markup.Reading

/-!
# Pieces of a Document

The first cut through a document: runs of text up to the next `<`, and markup
from a `<` to its closing `>`. Which `>` closes depends on the kind of markup,
and the kind is told by the one or two characters after the `<`. No piece looks
into another, so the cut is a list of pieces with the byte offset of each, and
nothing of the text is lost but what comments, instructions, declarations and
doctypes hold.

Kinds are recognised by less than their full opening: `<!-` already begins a
comment and `<![` character data. A piece that ends like its kind but does not
begin like it counts as unclosed.

## Main definitions

* `Piece`: A run of text or one piece of markup.
* `Kind.ofStart`: The kind of markup, from the characters after a `<`.
* `Kind.split`: The content of markup and what follows its closing `>`.
* `Kind.piece`: The piece with a given content.
* `pieces`: The pieces of a text with their offsets.

## Theorems

* `Kind.split_eq_append`: The content, a `>` and the remainder are the text.
-/

namespace PackageSymbols

namespace Markup

open Text

/-- The four characters that separate the parts of a tag. -/
def isSeparator (c : Char) : Bool :=
  c == ' ' || c == '\t' || c == '\r' || c == '\n'

/-- A run of text or one piece of markup, as written. -/
inductive Piece where
  /-- Text between markup. -/
  | text (chars : List Char)
  /-- What a section of character data holds. -/
  | characterData (chars : List Char)
  /-- A start tag: its name and attributes. -/
  | startTag (content : List Char)
  /-- A tag of an empty element: its name and attributes. -/
  | emptyTag (content : List Char)
  /-- An end tag: its name. -/
  | endTag (name : List Char)
  /-- A comment, an instruction, a declaration or a doctype. -/
  | aside
deriving DecidableEq, Repr

/-- The kind of markup, from what follows the `<`. -/
def Kind.ofStart : List Char → Option Kind
  | '!' :: '[' :: _ => some .characterData
  | '!' :: '-' :: _ => some .comment
  | '!' :: 'D' :: _ => some .doctype
  | '!' :: 'd' :: _ => some .doctype
  | '!' :: _ => none
  | '?' :: _ => some .instruction
  | _ => some .tag

/-- Splits at the first `>` whose preceding text, told in reverse, passes a test. `seen` is the
    text passed so far, in reverse. -/
def splitAtClose (closes : List Char → Bool) (seen : List Char) :
    List Char → Option (List Char × List Char)
  | [] => none
  | c :: cs =>
      if c = '>' ∧ closes seen = true then some (seen.reverse, cs)
      else splitAtClose closes (c :: seen) cs

/-- The quote that is open after one more character. -/
def nextQuote : Option Char → Char → Option Char
  | none, c => if c = '"' ∨ c = '\'' then some c else none
  | some q, c => if c = q then none else some q

/-- Splits at the first `>` outside of quotes. `quote` is the quote that is open, and `seen` the
    text passed so far, in reverse. -/
def splitOutsideQuotes (quote : Option Char) (seen : List Char) :
    List Char → Option (List Char × List Char)
  | [] => none
  | c :: cs =>
      if c = '>' ∧ quote = none then some (seen.reverse, cs)
      else splitOutsideQuotes (nextQuote quote c) (c :: seen) cs

/-- Whether a `>` after the reversed text closes a comment: two dashes stand before it, and they
    are not those of the opening. -/
def closesComment : List Char → Bool
  | '-' :: '-' :: seen => seen.length > 2
  | _ => false

/-- Whether a `>` after the reversed text closes character data. -/
def closesCharacterData : List Char → Bool
  | ']' :: ']' :: _ => true
  | _ => false

/-- Whether a `>` after the reversed text closes a doctype: every `<` in it has found its `>`. -/
def closesDoctype (seen : List Char) : Bool :=
  seen.count '<' == seen.count '>'

/-- Whether a `>` after the reversed text closes an instruction. -/
def closesInstruction : List Char → Bool
  | '?' :: _ => true
  | _ => false

/-- The content of markup, which begins after a `<`, and what follows its closing `>`. -/
def Kind.split : Kind → List Char → Option (List Char × List Char)
  | .comment => splitAtClose closesComment []
  | .characterData => splitAtClose closesCharacterData []
  | .doctype => splitAtClose closesDoctype []
  | .instruction => splitAtClose closesInstruction []
  | .tag => splitOutsideQuotes none []

/-- The text without a given beginning. -/
def dropStart? : (start : List Char) → List Char → Option (List Char)
  | [], cs => some cs
  | _ :: _, [] => none
  | s :: start, c :: cs => if c = s then dropStart? start cs else none

/-- The name of an end tag without the separators after it. A name of separators only is kept. -/
def endTagName (content : List Char) : List Char :=
  if content.all isSeparator then content
  else (content.reverse.dropWhile isSeparator).reverse

/-- The piece that a tag with a given content is. -/
def tagPiece (content : List Char) : Piece :=
  match content with
  | '/' :: name => .endTag (endTagName name)
  | _ =>
      match content.reverse with
      | '/' :: front => .emptyTag front.reverse
      | _ => .startTag content

/-- The piece with a given content, if it begins like its kind. -/
def Kind.piece : Kind → List Char → Except Cause Piece
  | .comment, content =>
      if (dropStart? ['!', '-', '-'] content).isSome then .ok .aside
      else .error (.unclosed .comment)
  | .characterData, content =>
      match dropStart? ['!', '[', 'C', 'D', 'A', 'T', 'A', '['] content with
      | some chars => .ok (.characterData chars.dropLast.dropLast)
      | none => .error (.unclosed .characterData)
  | .doctype, content =>
      if (content.take 8).map Char.toUpper = ['!', 'D', 'O', 'C', 'T', 'Y', 'P', 'E'] then
        if (content.drop 8).all isSeparator then .error .unnamedDoctype else .ok .aside
      else .error (.unclosed .doctype)
  | .instruction, content =>
      if content.length > 1 then .ok .aside else .error (.unclosed .instruction)
  | .tag, content => .ok (tagPiece content)

/-- A value with the byte offset at which it begins. -/
structure Located (α : Type) where
  /-- Bytes before it. -/
  offset : Nat
  /-- What stands there. -/
  value : α
deriving Repr

theorem splitAtClose_eq_append (closes : List Char → Bool) (seen cs : List Char)
    {content rest : List Char} (h : splitAtClose closes seen cs = some (content, rest)) :
    content ++ '>' :: rest = seen.reverse ++ cs := by
  induction cs generalizing seen with
  | nil => exact absurd h (by simp only [splitAtClose, reduceCtorEq, not_false_eq_true])
  | cons c cs ih =>
      rw [splitAtClose] at h
      split at h
      · next hc =>
          simp only [Option.some.injEq, Prod.mk.injEq] at h
          rw [← h.1, ← h.2, hc.1]
      · rw [ih (c :: seen) h, List.reverse_cons, List.append_assoc, List.singleton_append]

theorem splitOutsideQuotes_eq_append (quote : Option Char) (seen cs : List Char)
    {content rest : List Char} (h : splitOutsideQuotes quote seen cs = some (content, rest)) :
    content ++ '>' :: rest = seen.reverse ++ cs := by
  induction cs generalizing quote seen with
  | nil => exact absurd h (by simp only [splitOutsideQuotes, reduceCtorEq, not_false_eq_true])
  | cons c cs ih =>
      rw [splitOutsideQuotes] at h
      split at h
      · next hc =>
          simp only [Option.some.injEq, Prod.mk.injEq] at h
          rw [← h.1, ← h.2, hc.1]
      · rw [ih _ (c :: seen) h, List.reverse_cons, List.append_assoc, List.singleton_append]

/-- The content of markup, a `>` and the remainder are the text that was split. -/
theorem Kind.split_eq_append (kind : Kind) {cs content rest : List Char}
    (h : kind.split cs = some (content, rest)) : content ++ '>' :: rest = cs := by
  cases kind
  case tag => exact splitOutsideQuotes_eq_append none [] cs h
  all_goals exact splitAtClose_eq_append _ [] cs h

/-- What follows markup is shorter than the markup with it. -/
theorem Kind.length_lt_of_split (kind : Kind) {cs content rest : List Char}
    (h : kind.split cs = some (content, rest)) : rest.length < cs.length := by
  rw [← kind.split_eq_append h, List.length_append, List.length_cons]
  omega

/-- Where a fault in markup is reported: at its `<`, but a missing document type where its name
    would have to stand, right before the `>`. -/
def pieceFault (offset : Nat) (content : List Char) (cause : Cause) : Fault :=
  match cause with
  | .unnamedDoctype => ⟨offset + 1 + utf8Length content, cause⟩
  | _ => ⟨offset, cause⟩

/-- The pieces of a text whose first character is at the given offset. -/
def pieces (offset : Nat) (cs : List Char) : Reading Fault (Located Piece) :=
  match cs with
  | [] => .done
  | c :: rest =>
      if c = '<' then
        match Kind.ofStart rest with
        | none => .fail ⟨offset, .unknownMarkup⟩
        | some kind =>
            match _h : kind.split rest with
            | none => .fail ⟨offset, .unclosed kind⟩
            | some (content, after) =>
                match kind.piece content with
                | .error cause => .fail (pieceFault offset content cause)
                | .ok piece =>
                    .cons ⟨offset, piece⟩ (pieces (offset + utf8Length content + 2) after)
      else
        let run := c :: rest.takeWhile (· != '<')
        .cons ⟨offset, .text run⟩
          (pieces (offset + utf8Length run) (rest.dropWhile (· != '<')))
termination_by cs.length
decreasing_by
  · have := kind.length_lt_of_split _h
    simp only [List.length_cons]
    omega
  · have := (List.dropWhile_sublist (l := rest) (· != '<')).length_le
    simp only [List.length_cons]
    omega

end Markup

end PackageSymbols

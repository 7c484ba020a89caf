import PackageSymbols.Markup.Reference
import PackageSymbols.Proofs.Scanning

/-!
# Escaped Text Is Read Back

A text is put into a document by writing five of its characters as references
by name. Nothing in the written text can be taken for markup or for the quote
around a value, and reading the references gives the text back, at whatever
place of the document it stands.

## Main definitions

* `escapeChar`, `escape`: A character and a text as they are written.

## Theorems

* `resolveFrom_escape`, `resolve_escape`: Escaped text is read back.
* `ne_of_mem_escape`: Escaped text holds no markup and no quotes.
-/

namespace PackageSymbols

namespace Markup

open Text

/-- A character as it is written in a text or in a value. -/
def escapeChar (c : Char) : List Char :=
  if c = '&' then ['&', 'a', 'm', 'p', ';']
  else if c = '<' then ['&', 'l', 't', ';']
  else if c = '>' then ['&', 'g', 't', ';']
  else if c = '"' then ['&', 'q', 'u', 'o', 't', ';']
  else if c = '\'' then ['&', 'a', 'p', 'o', 's', ';']
  else [c]

/-- A text as it is written. -/
def escape (cs : List Char) : List Char :=
  cs.flatMap escapeChar

theorem resolveFrom_cons_of_ne {c : Char} (h : c ≠ '&') (offset : Nat) (rest : List Char) :
    resolveFrom offset (c :: rest) =
      (resolveFrom (offset + c.utf8Size) rest).map fun text => c :: text := by
  rw [resolveFrom, if_neg h]
  cases resolveFrom (offset + c.utf8Size) rest with
  | error cause => rfl
  | ok text => rfl

theorem resolveFrom_reference (name : List Char) {c : Char} {offset : Nat}
    (hname : (name.all fun d => !endsReference d) = true)
    (hc : referenced (offset + 1) name = .ok c)
    (rest : List Char) :
    resolveFrom offset ('&' :: (name ++ ';' :: rest)) =
      (resolveFrom (offset + utf8Length name + 2) rest).map fun text => c :: text := by
  -- Nothing in the name ends the search for the semicolon.
  have hgo := List.all_eq_true.mp hname
  have htake : (name ++ ';' :: rest).takeWhile (fun d => !endsReference d) = name :=
    takeWhile_append_cons hgo rfl rest
  have hdrop : (name ++ ';' :: rest).dropWhile (fun d => !endsReference d) = ';' :: rest :=
    dropWhile_append_cons hgo rfl rest
  rw [resolveFrom, if_pos rfl]
  split
  · next after hafter =>
      -- The equation that comes with the match fixes what follows the semicolon.
      rw [hdrop] at hafter
      rw [htake, ← (List.cons.inj hafter).2]
      simp only [hc]
      cases resolveFrom (offset + utf8Length name + 2) rest with
      | error cause => rfl
      | ok text => rfl
  · next hno => exact absurd hdrop (hno rest)

/-- A written character is read as the character, and reading goes on behind it. -/
theorem resolveFrom_escapeChar (c : Char) (rest : List Char) (offset : Nat) :
    ∃ next, resolveFrom offset (escapeChar c ++ rest) =
      (resolveFrom next rest).map fun text => c :: text := by
  rw [escapeChar]
  -- Five characters are written as references, and all others as they are.
  by_cases hand : c = '&'
  · rw [if_pos hand, hand]
    exact ⟨_, resolveFrom_reference ['a', 'm', 'p'] (by decide) rfl rest⟩
  · rw [if_neg hand]
    by_cases hless : c = '<'
    · rw [if_pos hless, hless]
      exact ⟨_, resolveFrom_reference ['l', 't'] (by decide) rfl rest⟩
    · rw [if_neg hless]
      by_cases hgreater : c = '>'
      · rw [if_pos hgreater, hgreater]
        exact ⟨_, resolveFrom_reference ['g', 't'] (by decide) rfl rest⟩
      · rw [if_neg hgreater]
        by_cases hquote : c = '"'
        · rw [if_pos hquote, hquote]
          exact ⟨_, resolveFrom_reference ['q', 'u', 'o', 't'] (by decide) rfl rest⟩
        · rw [if_neg hquote]
          by_cases hsingle : c = '\''
          · rw [if_pos hsingle, hsingle]
            exact ⟨_, resolveFrom_reference ['a', 'p', 'o', 's'] (by decide) rfl rest⟩
          · rw [if_neg hsingle]
            exact ⟨_, resolveFrom_cons_of_ne hand offset rest⟩

/-- Escaped text is read back, wherever it stands. -/
theorem resolveFrom_escape (cs : List Char) (offset : Nat) :
    resolveFrom offset (escape cs) = .ok cs := by
  induction cs generalizing offset with
  | nil =>
      rw [escape, List.flatMap_nil, resolveFrom]
  | cons c cs ih =>
      rw [escape, List.flatMap_cons]
      -- How far a written character moves the offset does not matter for what is read.
      rcases resolveFrom_escapeChar c (cs.flatMap escapeChar) offset with ⟨next, hnext⟩
      rw [hnext]
      exact congrArg (Except.map fun text => c :: text) (ih next)

theorem resolve_escape (s : String) : resolve (escape s.toList) = .ok s := by
  rw [resolve, resolveFrom_escape]
  exact congrArg Except.ok String.ofList_toList

theorem escape_ne_nil {cs : List Char} (h : cs ≠ []) : escape cs ≠ [] := by
  intro hnil
  -- Nothing is read from an empty text, but the text would be.
  have hread := resolveFrom_escape cs 0
  rw [hnil, resolveFrom] at hread
  exact h (Except.ok.inj hread).symm

/-- Escaped text holds no markup and no quotes. -/
theorem ne_of_mem_escape {cs : List Char} {d : Char} (h : d ∈ escape cs) :
    d ≠ '<' ∧ d ≠ '>' ∧ d ≠ '"' ∧ d ≠ '\'' := by
  rcases List.mem_flatMap.mp h with ⟨c, _, hd⟩
  rw [escapeChar] at hd
  have hentity : ∀ entity : List Char,
      (entity.all fun d => d != '<' && d != '>' && d != '"' && d != '\'') = true →
      d ∈ entity → d ≠ '<' ∧ d ≠ '>' ∧ d ≠ '"' ∧ d ≠ '\'' := by
    intro entity hall hmem
    have hne := List.all_eq_true.mp hall d hmem
    simp only [Bool.and_eq_true, bne_iff_ne] at hne
    exact ⟨hne.1.1.1, hne.1.1.2, hne.1.2, hne.2⟩
  by_cases hand : c = '&'
  · rw [if_pos hand] at hd
    exact hentity _ (by decide) hd
  · rw [if_neg hand] at hd
    by_cases hless : c = '<'
    · rw [if_pos hless] at hd
      exact hentity _ (by decide) hd
    · rw [if_neg hless] at hd
      by_cases hgreater : c = '>'
      · rw [if_pos hgreater] at hd
        exact hentity _ (by decide) hd
      · rw [if_neg hgreater] at hd
        by_cases hquote : c = '"'
        · rw [if_pos hquote] at hd
          exact hentity _ (by decide) hd
        · rw [if_neg hquote] at hd
          by_cases hsingle : c = '\''
          · rw [if_pos hsingle] at hd
            exact hentity _ (by decide) hd
          · rw [if_neg hsingle, List.mem_singleton] at hd
            -- A character that is written as it is was none of the five.
            rw [hd]
            exact ⟨hless, hgreater, hquote, hsingle⟩

end Markup

end PackageSymbols

import Mathlib.Data.List.TakeWhile
import PackageSymbols.Proofs.Numerals

/-!
# Blanks Around Tokens

A text that people write is a row of tokens with blanks between and around them,
and nothing depends on how many there are. Two readers make use of that. One
trims: what it keeps is the only token of the text. The other takes out all
blanks, and what it keeps is the tokens without a boundary between them.

The second way forgets where the tokens ended. Read backwards, it only says that
the text is a row of single characters, with blanks between any two of them. Such
a text is a row of the tokens again unless a token is torn, which is the only
thing that can have gone wrong.

## Main definitions

* `IsSpaced`: A text is a row of tokens with blanks between and around them.
* `IsTorn`: A token has blanks inside.

## Theorems

* `isSpaced_cons_iff`: The first token, and the others behind it.
* `IsSpaced.filter`: Without blanks only the tokens are left.
* `IsSpaced.trimChars`, `isSpaced_trimChars`: A text is what is left of it by
  trimming, with blanks around.
* `isSpaced_filter`: A text is what is left of it without blanks, in single
  characters.
* `isSpaced_or_isTorn`: A row of the characters of tokens is one of the tokens, or
  a token is torn.
-/

namespace PackageSymbols

namespace Text

/-- Whether a text is a row of tokens with any number of blanks between and around them. -/
def IsSpaced (tokens : List (List Char)) (cs : List Char) : Prop :=
  ∃ (row : List (List Char × List Char)) (last : List Char), row.map Prod.snd = tokens ∧
    (∀ gap ∈ last :: row.map Prod.fst, ∀ c ∈ gap, isBlank c = true) ∧
    cs = row.flatMap (fun part => part.1 ++ part.2) ++ last

/-- Whether two neighbours in a token have blanks between them in a text. -/
def IsTorn (token cs : List Char) : Prop :=
  ∃ xs c d ys before gap behind, token = xs ++ c :: d :: ys ∧ gap ≠ [] ∧
    (∀ b ∈ gap, isBlank b = true) ∧ cs = before ++ c :: (gap ++ d :: behind)

section Blanks

theorem filter_of_blank {cs : List Char} (h : ∀ c ∈ cs, isBlank c = true) :
    cs.filter (fun c => !isBlank c) = [] := by
  rw [List.filter_eq_nil_iff]
  intro c hc
  rw [h c hc]
  decide

theorem filter_of_not_blank {cs : List Char} (h : ∀ c ∈ cs, isBlank c = false) :
    cs.filter (fun c => !isBlank c) = cs := by
  rw [List.filter_eq_self]
  intro c hc
  rw [h c hc]
  rfl

/-- Without blanks only the tokens are left. -/
theorem IsSpaced.filter {tokens : List (List Char)} {cs : List Char} (h : IsSpaced tokens cs)
    (htokens : ∀ c ∈ tokens.flatten, isBlank c = false) :
    cs.filter (fun c => !isBlank c) = tokens.flatten := by
  rcases h with ⟨row, last, rfl, hgaps, rfl⟩
  rw [List.forall_mem_cons] at hgaps
  rw [List.filter_append, filter_of_blank hgaps.1, List.append_nil, List.filter_flatMap,
    List.flatten_eq_flatMap, List.flatMap_map]
  refine List.flatMap_congr fun part hpart => ?_
  have htoken : ∀ c ∈ part.2, isBlank c = false := fun c hc =>
    htokens c (List.mem_flatten.mpr ⟨part.2, List.mem_map_of_mem hpart, hc⟩)
  rw [List.filter_append, filter_of_blank (hgaps.2 _ (List.mem_map_of_mem hpart)),
    filter_of_not_blank htoken, List.nil_append]
  rfl

theorem filter_dropWhile_isBlank (cs : List Char) :
    (cs.dropWhile isBlank).filter (fun c => !isBlank c) = cs.filter fun c => !isBlank c := by
  have hsplit := congrArg (List.filter fun c => !isBlank c)
    (List.takeWhile_append_dropWhile (p := isBlank) (l := cs))
  rw [List.filter_append, filter_of_blank fun c hc => List.mem_takeWhile_imp hc,
    List.nil_append] at hsplit
  exact hsplit

/-- Blanks at the ends make no difference where blanks mean nothing. -/
theorem filter_trimChars (cs : List Char) :
    (trimChars cs).filter (fun c => !isBlank c) = cs.filter fun c => !isBlank c := by
  rw [trimChars, trimEndChars, List.filter_reverse, filter_dropWhile_isBlank,
    ← List.filter_reverse, List.reverse_reverse, filter_dropWhile_isBlank]

/-- Of a single token with blanks around it the token is left. -/
theorem IsSpaced.trimChars {token cs : List Char} (h : IsSpaced [token] cs) (hne : token ≠ [])
    (htrimmed : IsTrimmed token) : trimChars cs = token := by
  rcases h with ⟨row, last, hrow, hgaps, rfl⟩
  rcases List.map_eq_singleton_iff.mp hrow with ⟨part, rfl, hpart⟩
  rw [List.forall_mem_cons, List.map_singleton, List.forall_mem_singleton] at hgaps
  have hfront : ∀ c ∈ (token ++ last).head?, isBlank c = false := by
    rw [List.head?_append_of_ne_nil _ hne]
    exact htrimmed.1
  have hback : ∀ c ∈ token.reverse.head?, isBlank c = false := by
    rw [List.head?_reverse]
    exact htrimmed.2
  have hlast : ∀ c ∈ last.reverse, isBlank c = true := fun c hc =>
    hgaps.1 c (List.mem_reverse.mp hc)
  rw [List.flatMap_singleton, hpart, List.append_assoc, Text.trimChars, trimEndChars,
    List.dropWhile_append_of_pos hgaps.2, dropWhile_isBlank_eq_self hfront, List.reverse_append,
    List.dropWhile_append_of_pos hlast, dropWhile_isBlank_eq_self hback, List.reverse_reverse]

theorem IsNumeral.not_isBlank {base n : Nat} (hbase : base ≤ 16) {cs : List Char}
    (h : IsNumeral base n cs) : ∀ c ∈ cs, isBlank c = false := by
  intro c hc
  rcases (isDigit_iff hbase).mp (h.isDigit hbase c hc) with ⟨d, hd, rfl | rfl⟩
  · exact isBlank_lowerDigit d (Nat.lt_of_lt_of_le hd hbase)
  · exact isBlank_upperDigit d (Nat.lt_of_lt_of_le hd hbase)

end Blanks

section Rows

theorem isSpaced_nil_iff {cs : List Char} : IsSpaced [] cs ↔ ∀ c ∈ cs, isBlank c = true := by
  constructor
  · rintro ⟨row, last, hrow, hgaps, rfl⟩
    rw [List.map_eq_nil_iff.mp hrow] at hgaps ⊢
    exact hgaps last List.mem_cons_self
  · intro h
    exact ⟨[], cs, rfl, List.forall_mem_singleton.mpr h, rfl⟩

/-- The first token stands behind a gap, and the others stand behind it. -/
theorem isSpaced_cons_iff {token : List Char} {tokens : List (List Char)} {cs : List Char} :
    IsSpaced (token :: tokens) cs ↔ ∃ gap rest, (∀ c ∈ gap, isBlank c = true) ∧
      cs = gap ++ (token ++ rest) ∧ IsSpaced tokens rest := by
  constructor
  · rintro ⟨row, last, hrow, hgaps, rfl⟩
    rcases List.map_eq_cons_iff.mp hrow with ⟨⟨gap, _⟩, more, rfl, rfl, hmore⟩
    rw [List.map_cons, List.forall_mem_cons, List.forall_mem_cons] at hgaps
    refine ⟨gap, more.flatMap (fun part => part.1 ++ part.2) ++ last, hgaps.2.1, ?_, more, last,
      hmore, List.forall_mem_cons.mpr ⟨hgaps.1, hgaps.2.2⟩, rfl⟩
    rw [List.flatMap_cons, List.append_assoc, List.append_assoc]
  · rintro ⟨gap, _, hgap, rfl, more, last, rfl, hgaps, rfl⟩
    rw [List.forall_mem_cons] at hgaps
    refine ⟨(gap, token) :: more, last, rfl, ?_, ?_⟩
    · rw [List.map_cons, List.forall_mem_cons, List.forall_mem_cons]
      exact ⟨hgaps.1, hgap, hgaps.2⟩
    · rw [List.flatMap_cons, List.append_assoc, List.append_assoc]

/-- One more blank in front makes no difference. -/
theorem IsSpaced.cons_blank {tokens : List (List Char)} {cs : List Char} (h : IsSpaced tokens cs)
    {c : Char} (hc : isBlank c = true) : IsSpaced tokens (c :: cs) := by
  cases tokens with
  | nil => exact isSpaced_nil_iff.mpr (List.forall_mem_cons.mpr ⟨hc, isSpaced_nil_iff.mp h⟩)
  | cons token tokens =>
      rcases isSpaced_cons_iff.mp h with ⟨gap, rest, hgap, rfl, hrest⟩
      exact isSpaced_cons_iff.mpr
        ⟨c :: gap, rest, List.forall_mem_cons.mpr ⟨hc, hgap⟩, rfl, hrest⟩

/-- A token that begins a text stands in front of the others. -/
theorem IsSpaced.token {tokens : List (List Char)} {rest : List Char} (token : List Char)
    (h : IsSpaced tokens rest) : IsSpaced (token :: tokens) (token ++ rest) :=
  isSpaced_cons_iff.mpr ⟨[], rest, List.forall_mem_nil _, rfl, h⟩

/-- A text is what is left of it by trimming, with blanks around. -/
theorem isSpaced_trimChars (cs : List Char) : IsSpaced [trimChars cs] cs := by
  let rest := cs.dropWhile isBlank
  have hfront : cs = cs.takeWhile isBlank ++ rest := List.takeWhile_append_dropWhile.symm
  -- The blanks at the end are those in front of the reversed text.
  have hback : rest = trimEndChars rest ++ (rest.reverse.takeWhile isBlank).reverse := by
    rw [trimEndChars, ← List.reverse_append, List.takeWhile_append_dropWhile, List.reverse_reverse]
  refine isSpaced_cons_iff.mpr ⟨cs.takeWhile isBlank, (rest.reverse.takeWhile isBlank).reverse,
    fun c hc => List.mem_takeWhile_imp hc, ?_, ?_⟩
  · rw [trimChars, ← hback, ← hfront]
  · refine isSpaced_nil_iff.mpr fun c hc => ?_
    exact List.mem_takeWhile_imp (List.mem_reverse.mp hc)

/-- A text is what is left of it without blanks, in single characters. -/
theorem isSpaced_filter (cs : List Char) :
    IsSpaced ((cs.filter fun c => !isBlank c).map fun c => [c]) cs := by
  induction cs with
  | nil => exact isSpaced_nil_iff.mpr (List.forall_mem_nil _)
  | cons c cs ih =>
      cases hc : isBlank c with
      | true =>
          rw [List.filter_cons_of_neg (by rw [hc]; decide)]
          exact ih.cons_blank hc
      | false =>
          rw [List.filter_cons_of_pos (by rw [hc]; decide)]
          exact ih.token [c]

end Rows

section Tearing

variable {token : List Char} {tokens : List (List Char)} {cs : List Char}

theorem IsTorn.append_left (h : IsTorn token cs) (front : List Char) :
    IsTorn token (front ++ cs) := by
  rcases h with ⟨xs, c, d, ys, before, gap, behind, htoken, hne, hgap, rfl⟩
  exact ⟨xs, c, d, ys, front ++ before, gap, behind, htoken, hne, hgap,
    (List.append_assoc _ _ _).symm⟩

theorem IsTorn.cons (h : IsTorn token cs) (c : Char) : IsTorn (c :: token) (c :: cs) := by
  rcases h with ⟨xs, d, e, ys, before, gap, behind, rfl, hne, hgap, rfl⟩
  exact ⟨c :: xs, d, e, ys, c :: before, gap, behind, rfl, hne, hgap, rfl⟩

/-- Behind its first character a token goes on without blanks, or it is torn. -/
theorem IsSpaced.append_or_isTorn {c : Char} {run rest : List Char}
    (h : IsSpaced (run.map (fun c => [c]) ++ tokens) rest) :
    (∃ behind, rest = run ++ behind ∧ IsSpaced tokens behind) ∨
      IsTorn (c :: run) (c :: rest) := by
  induction run generalizing c rest with
  | nil => exact Or.inl ⟨rest, rfl, h⟩
  | cons d run ih =>
      rcases isSpaced_cons_iff.mp h with ⟨gap, behind, hgap, rfl, hbehind⟩
      by_cases hne : gap = []
      · rcases @ih d behind hbehind with ⟨after, rfl, hafter⟩ | htorn
        · exact Or.inl ⟨after, by rw [hne]; rfl, hafter⟩
        · rw [hne]
          exact Or.inr (htorn.cons c)
      · exact Or.inr ⟨[], c, d, run, [], gap, behind, rfl, hne, hgap, rfl⟩

/-- A row of the characters of tokens is a row of the tokens, or one of them is torn. -/
theorem isSpaced_or_isTorn (h : IsSpaced (tokens.flatten.map fun c => [c]) cs) :
    IsSpaced tokens cs ∨ ∃ token ∈ tokens, IsTorn token cs := by
  induction tokens generalizing cs with
  | nil => exact Or.inl h
  | cons token tokens ih =>
      cases token with
      | nil =>
          rcases ih h with hspaced | ⟨token, htoken, htorn⟩
          · exact Or.inl (hspaced.token [])
          · exact Or.inr ⟨token, List.mem_cons_of_mem _ htoken, htorn⟩
      | cons c run =>
          -- The first character is behind a gap; the others of its token follow at once or not.
          rw [List.flatten_cons, List.cons_append, List.map_cons, List.map_append] at h
          rcases isSpaced_cons_iff.mp h with ⟨gap, rest, hgap, rfl, hrest⟩
          rcases hrest.append_or_isTorn (c := c) with ⟨behind, rfl, hbehind⟩ | htorn
          · rcases ih hbehind with hspaced | ⟨token, htoken, htorn⟩
            · exact Or.inl (isSpaced_cons_iff.mpr ⟨gap, behind, hgap, rfl, hspaced⟩)
            · exact Or.inr ⟨token, List.mem_cons_of_mem _ htoken,
                (htorn.append_left (c :: run)).append_left gap⟩
          · exact Or.inr ⟨c :: run, List.mem_cons_self, htorn.append_left gap⟩

end Tearing

end Text

end PackageSymbols

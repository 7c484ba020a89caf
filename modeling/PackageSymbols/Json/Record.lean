import PackageSymbols.Json.Skip

/-!
# Records of Optional Texts

Options come as a JSON record whose members are texts or nothing. The text is
read from left to right and the first flaw decides what is said of it: either
that it is not JSON, or that it is JSON of another shape. So a value of the
wrong kind is noticed as soon as it is clear what kind it is, which for a list
or a record is its first character; a member that is given twice is noticed at
its second name. Members that are not asked for are passed over, and members
that are absent are nothing.

The members may also be given as a list without names, in their order; members
at the end may be left out.

## Main definitions

* `Flaw`: What can be said of a text that is no such record.
* `readText`, `readOptional`: A text, and a text or nothing.
* `readMembers`, `readItems`: The members by name, and by place.
* `readRecord`: A record with members of given names.
-/

namespace PackageSymbols

namespace Json

/-- What can be said of a text that is no record of optional texts. -/
inductive Flaw where
  /-- It is not JSON. -/
  | malformed
  /-- It is JSON of another shape. -/
  | unfit
deriving DecidableEq, Repr

/-- Reads a text, given behind its opening quote. -/
def readText (cs : List Char) : Except Flaw (String × List Char) :=
  match scanParts cs with
  | some (parts, rest) =>
      match charactersOf parts with
      | some chars => .ok (String.ofList chars, rest)
      | none => .error .malformed
  | none => .error .malformed

/-- The flaw of a value that stands in place of a value of another kind. -/
def misplaced : List Char → Flaw
  | [] => .malformed
  | c :: cs =>
      if c = '[' ∨ c = '\x7b' then .unfit
      else if c = '"' then
        match readText cs with
        | .ok _ => .unfit
        | .error flaw => flaw
      else
        match scanNumber (c :: cs) with
        | some (n, _) => if n.exceedsDouble then .malformed else .unfit
        | none => if (skipScalar (c :: cs)).isSome then .unfit else .malformed

/-- Reads a text or nothing. -/
def readOptional (cs : List Char) : Except Flaw (Option String × List Char) :=
  match skipBlanks cs with
  | '"' :: rest => do
      let (text, rest) ← readText rest
      return (some text, rest)
  | 'n' :: rest =>
      match skipWord ['u', 'l', 'l'] rest with
      | some rest => .ok (none, rest)
      | none => .error .malformed
  | value => .error (misplaced value)

/-- The members of a record that were found so far. -/
abbrev Found := List (String × Option String)

/-- Reads a member, given behind the opening quote of its name. -/
def readMember (names : List String) (found : Found) (cs : List Char) :
    Except Flaw (Found × List Char) := do
  let (name, rest) ← readText cs
  if name ∈ names ∧ (found.lookup name).isSome then throw .unfit
  match skipBlanks rest with
  | ':' :: rest =>
      if name ∈ names then do
        let (value, rest) ← readOptional rest
        return ((name, value) :: found, rest)
      else
        match skipValue rest with
        | some rest => return (found, rest)
        | none => throw .malformed
  | _ => throw .malformed

theorem length_lt_of_readText {cs rest : List Char} {s : String}
    (h : readText cs = .ok (s, rest)) : rest.length < cs.length := by
  unfold readText at h
  split at h
  · next parts rest' hp =>
      split at h
      · simp only [Except.ok.injEq, Prod.mk.injEq] at h
        rw [← h.2]
        exact length_lt_of_scanParts hp
      · exact absurd h (by simp only [reduceCtorEq, not_false_eq_true])
  · exact absurd h (by simp only [reduceCtorEq, not_false_eq_true])

theorem length_le_of_readOptional {cs rest : List Char} {value : Option String}
    (h : readOptional cs = .ok (value, rest)) : rest.length ≤ cs.length := by
  unfold readOptional at h
  split at h
  · next rest' hcs =>
      have l := length_lt_of_skipBlanks hcs
      rcases ht : readText rest' with flaw | ⟨text, after⟩
      · rw [ht] at h
        exact absurd h (by simp only [bind, Except.bind, reduceCtorEq, not_false_eq_true])
      · rw [ht] at h
        simp only [bind, Except.bind, pure, Except.pure, Except.ok.injEq, Prod.mk.injEq] at h
        have := length_lt_of_readText ht
        rw [← h.2]
        omega
  · next rest' hcs =>
      have l := length_lt_of_skipBlanks hcs
      split at h
      · next after hw =>
          simp only [Except.ok.injEq, Prod.mk.injEq] at h
          have := length_le_of_skipWord hw
          rw [← h.2]
          omega
      · exact absurd h (by simp only [reduceCtorEq, not_false_eq_true])
  · exact absurd h (by simp only [reduceCtorEq, not_false_eq_true])

/-- Reading a member uses up text. -/
theorem length_lt_of_readMember {names : List String} {found found' : Found}
    {cs rest : List Char} (h : readMember names found cs = .ok (found', rest)) :
    rest.length < cs.length := by
  unfold readMember at h
  rcases ht : readText cs with flaw | ⟨name, after⟩
  · rw [ht] at h
    exact absurd h (by simp only [bind, Except.bind, reduceCtorEq, not_false_eq_true])
  -- The name uses up text, and what is behind it gives none back.
  have lt := length_lt_of_readText ht
  rw [ht] at h
  simp only [bind, Except.bind, pure, Except.pure, throw, throwThe, MonadExceptOf.throw] at h
  split at h
  · exact absurd h (by simp only [reduceCtorEq, not_false_eq_true])
  split at h
  · next value hcolon =>
      have lc := length_lt_of_skipBlanks hcolon
      split at h
      · split at h
        · exact absurd h (by simp only [reduceCtorEq, not_false_eq_true])
        · next read hv =>
            simp only [Except.ok.injEq, Prod.mk.injEq] at h
            have := length_le_of_readOptional hv
            rw [← h.2]
            omega
      · split at h
        · next rest' hv =>
            simp only [Except.ok.injEq, Prod.mk.injEq] at h
            have := length_lt_of_skipInside hv
            rw [← h.2]
            omega
        · exact absurd h (by simp only [reduceCtorEq, not_false_eq_true])
  · exact absurd h (by simp only [reduceCtorEq, not_false_eq_true])

/-- Reads the members that follow a member, and the end of the record. -/
def readMembers (names : List String) (found : Found) (cs : List Char) :
    Except Flaw (Found × List Char) :=
  match _h : skipBlanks cs with
  | '\x7d' :: rest => .ok (found, rest)
  | ',' :: rest =>
      match _q : skipBlanks rest with
      | '"' :: rest =>
          match _m : readMember names found rest with
          | .ok (found, rest) => readMembers names found rest
          | .error flaw => .error flaw
      | _ => .error .malformed
  | _ => .error .malformed
termination_by cs.length
decreasing_by
  exact Nat.lt_trans (length_lt_of_readMember _m)
    (Nat.lt_trans (length_lt_of_skipBlanks _q) (length_lt_of_skipBlanks _h))

/-- Reads the members of a record by name, given behind its opening brace. -/
def readNamed (names : List String) (cs : List Char) :
    Except Flaw (List (Option String) × List Char) := do
  let (found, rest) ←
    match skipBlanks cs with
    | '\x7d' :: rest => pure ([], rest)
    | '"' :: rest => do
        let (found, rest) ← readMember names [] rest
        readMembers names found rest
    | _ => throw .malformed
  return (names.map fun name => (found.lookup name).join, rest)

/-- Reads the members that follow in a list, one for each remaining name, and its end. -/
def readFurther : (names : List String) → List Char →
    Except Flaw (List (Option String) × List Char)
  | names, cs =>
      match skipBlanks cs with
      | ']' :: rest => .ok (names.map fun _ => none, rest)
      | ',' :: rest =>
          match names with
          | [] => .error .malformed
          | _ :: names => do
              let (value, rest) ← readOptional rest
              let (values, rest) ← readFurther names rest
              return (value :: values, rest)
      | _ => .error .malformed

/-- Reads the members of a record by place, given behind the opening bracket of a list. -/
def readItems (names : List String) (cs : List Char) :
    Except Flaw (List (Option String) × List Char) :=
  match skipBlanks cs, names with
  | ']' :: rest, names => .ok (names.map fun _ => none, rest)
  | _, [] => .error .malformed
  | first, _ :: names => do
      let (value, rest) ← readOptional first
      let (values, rest) ← readFurther names rest
      return (value :: values, rest)

/-- Reads a record with members of the given names from a whole text. -/
def readRecord (names : List String) (text : String) :
    Except Flaw (List (Option String)) := do
  let (values, rest) ←
    match skipBlanks text.toList with
    | '\x7b' :: rest => readNamed names rest
    | '[' :: rest => readItems names rest
    | value => throw (misplaced value)
  if (skipBlanks rest).isEmpty then return values else throw .malformed

end Json

end PackageSymbols

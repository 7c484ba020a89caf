/-!
# Groups in Order of First Appearance

Things that share a key are gathered into groups. A group stands where its key
first came up, and holds its members in the order they came; nothing depends on
any order of the keys themselves.

## Main definitions

* `Grouping`: Keys with the members of their groups.
* `Grouping.insert`: One more member for a group.
* `Grouping.ofList`: The groups of a list.
* `Grouping.members`: The group of a key.

## Theorems

* `Grouping.members_insert`: A member goes to the end of its own group only.
-/

namespace PackageSymbols

/-- Keys with the members of their groups, in order of first appearance. -/
structure Grouping (κ α : Type) where
  /-- Each key with its members. -/
  entries : List (κ × List α)
deriving Repr

namespace Grouping

variable {κ α : Type} [DecidableEq κ]

/-- No groups. -/
def empty : Grouping κ α :=
  { entries := [] }

/-- The entries after a member was added to the group of a key. -/
def insertEntry (key : κ) (member : α) : List (κ × List α) → List (κ × List α)
  | [] => [(key, [member])]
  | entry :: rest =>
      if entry.1 = key then (key, entry.2 ++ [member]) :: rest
      else entry :: insertEntry key member rest

/-- Adds a member to the group of a key; a new group comes last. -/
def insert (g : Grouping κ α) (key : κ) (member : α) : Grouping κ α :=
  { entries := insertEntry key member g.entries }

/-- The groups of members given with their keys. -/
def ofList (items : List (κ × α)) : Grouping κ α :=
  items.foldl (fun g item => g.insert item.1 item.2) empty

/-- The members that stand under a key. -/
def membersOf (key : κ) : List (κ × List α) → List α
  | [] => []
  | entry :: rest => if entry.1 = key then entry.2 else membersOf key rest

/-- The members of the group of a key, none for a key that never came up. -/
def members (g : Grouping κ α) (key : κ) : List α :=
  membersOf key g.entries

/-- How many groups there are. -/
def size (g : Grouping κ α) : Nat :=
  g.entries.length

/-- Whether there is no group. -/
def isEmpty (g : Grouping κ α) : Bool :=
  g.entries.isEmpty

/-- A member goes to the end of the group of its key, and no other group changes. -/
theorem members_insert (g : Grouping κ α) (key other : κ) (member : α) :
    (g.insert key member).members other =
      if other = key then g.members other ++ [member] else g.members other := by
  obtain ⟨entries⟩ := g
  simp only [members, insert]
  -- The entry that is changed is the first of its key, and it is also the first one found.
  induction entries with
  | nil =>
      by_cases h : other = key
      · simp only [insertEntry, membersOf, h, if_true, List.nil_append]
      · simp only [insertEntry, membersOf, h, Ne.symm h, if_false]
  | cons entry rest ih =>
      by_cases hk : entry.1 = key
      · by_cases h : other = key
        · simp only [insertEntry, membersOf, hk, h, if_true]
        · simp only [insertEntry, membersOf, hk, h, Ne.symm h, if_true, if_false]
      · by_cases h : entry.1 = other
        · have ne : ¬ other = key := fun e => hk (h.trans e)
          simp only [insertEntry, membersOf, h, ne, if_true, if_false]
        · simp only [insertEntry, membersOf, hk, h, if_false, ih]

end Grouping

end PackageSymbols

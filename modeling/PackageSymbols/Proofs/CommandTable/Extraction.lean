import PackageSymbols.Proofs.CommandTable.RoundTrip
import PackageSymbols.Proofs.FirstFailure
import PackageSymbols.Proofs.Markup.Building

/-!
# Symbols Are Extracted Exactly

Which elements of a document declare symbols is told by their places alone: an
element counts if the elements around it, from the root inwards, have the right
names, and all of them are in the namespace of the root. Everything else is
passed over, whatever it holds, and so are look-alikes at another level.

The literals of these elements, one after another as they stand in the document,
are all that the outcome depends on. If each of them can be read, the symbols of
the table are what they say, in their order. Otherwise the first that cannot be
read is at fault. The reader goes through the document by levels and fails on the
way, so it has to be shown that it fails at the first of them: the literal of a
GUID is read before those under it, and these before the next GUID. That is so
since a table, as a row of symbols, is what comes of reading the row of literals
(`map_ofRoot`).

## Main definitions

* `Markup.Node.placed`: The elements of a tree with the tags around them.
* `Markup.Head.plainValue`: What attributes without a namespace say.
* `CommandTable.Literal`, `CommandTable.literals`: The literals of a document.
* `CommandTable.Symbol`, `CommandTable.symbols`: The symbols of a table in a row.
* `Markup.Element.along`: What is left of an element along a path of names.

## Theorems

* `CommandTable.literals_eq_flatMap`: The literals, found level by level.
* `CommandTable.symbols_injective`: Symbols in a row tell the table.
* `CommandTable.map_ofRoot`: A table is what its literals say in a row.
* `CommandTable.ofRoot_along`: Nothing off the path of symbols is looked at.
* `CommandTable.parse_of_literals`: The outcome of reading a document.
-/

namespace PackageSymbols

open Markup

namespace Markup

mutual

/-- The elements of a node in document order, each with the tags of the elements around it. -/
def Node.placed (around : List Head) : Node → List (List Head × Element)
  | .text _ => []
  | .element head content => (around, ⟨head, content⟩) :: Node.placedAll (around ++ [head]) content

/-- The elements of a row of nodes. -/
def Node.placedAll (around : List Head) : List Node → List (List Head × Element)
  | [] => []
  | node :: rest => node.placed around ++ Node.placedAll around rest

end

mutual

/-- What is around a node is around all elements inside. -/
theorem Node.around_isPrefix (around : List Head) :
    ∀ node : Node, ∀ place ∈ node.placed around, around <+: place.1
  | .text _, _, hplace => absurd hplace List.not_mem_nil
  | .element head content, place, hplace => by
      rw [Node.placed] at hplace
      rcases List.mem_cons.mp hplace with rfl | hplace
      · exact List.prefix_refl _
      · exact (List.prefix_append _ _).trans (Node.around_isPrefix_all _ content place hplace)

theorem Node.around_isPrefix_all (around : List Head) :
    ∀ nodes : List Node, ∀ place ∈ Node.placedAll around nodes, around <+: place.1
  | [], _, hplace => absurd hplace List.not_mem_nil
  | node :: rest, place, hplace => by
      rw [Node.placedAll] at hplace
      rcases List.mem_append.mp hplace with hplace | hplace
      · exact Node.around_isPrefix around node place hplace
      · exact Node.around_isPrefix_all around rest place hplace

end

/-- The elements of a row of nodes are those at its top, each in front of what is inside of it. -/
theorem Node.placedAll_eq_flatMap (around : List Head) (nodes : List Node) :
    Node.placedAll around nodes = (nodes.filterMap Node.element?).flatMap fun e =>
      (around, e) :: Node.placedAll (around ++ [e.head]) e.content := by
  induction nodes with
  | nil => rfl
  | cons node rest ih =>
      cases node with
      | text _ => exact ih
      | element head content =>
          rw [Node.placedAll, ih, Node.placed]
          rfl

/-- A tag with only those of its attributes that have no namespace. -/
def Head.unqualified (head : Head) : Head :=
  { head with attributes := head.attributes.filter (·.uri.isNone) }

/-- What the attributes that have no namespace say under a name, empty if they say nothing. -/
def Head.plainValue (head : Head) (name : String) : String :=
  match head.unqualified.attributes.filter (·.name == name) with
  | [] => ""
  | a :: _ => a.value

/-- What is left of an element along a path of names: under the first name, what is left along the
    others of the children it has under that name. -/
def Element.along : List String → Element → Element
  | [], e => { head := e.head.unqualified, content := [] }
  | name :: path, e =>
      { head := e.head.unqualified
        content := (e.allNamed name).map fun child => (Element.along path child).node }

section Path

theorem Element.head_along (path : List String) (e : Element) :
    (e.along path).head = e.head.unqualified := by
  cases path with
  | nil => rfl
  | cons _ _ => rfl

theorem Head.unqualified_unqualified (head : Head) :
    head.unqualified.unqualified = head.unqualified := by
  rw [Head.unqualified, Head.unqualified, List.filter_filter]
  simp only [Bool.and_self]

theorem Element.valueOf_eq_plainValue (e : Element) (name : String) :
    e.valueOf name = e.head.plainValue name := by
  have hfind : e.head.attributes.find? (fun a => a.uri.isNone && a.name == name) =
      (e.head.unqualified.attributes.filter (·.name == name)).head? := by
    rw [Head.unqualified, List.filter_filter, List.head?_filter]
    exact congrArg (List.find? · e.head.attributes) (funext fun a => Bool.and_comm _ _)
  rw [Element.valueOf, Element.valueOf?, hfind, Head.plainValue]
  cases e.head.unqualified.attributes.filter (·.name == name) with
  | nil => rfl
  | cons a _ => rfl

theorem Element.valueOf_along (path : List String) (e : Element) (name : String) :
    (e.along path).valueOf name = e.valueOf name := by
  rw [Element.valueOf_eq_plainValue, Element.valueOf_eq_plainValue, Element.head_along,
    Head.plainValue, Head.plainValue, Head.unqualified_unqualified]

theorem mem_allNamed {e child : Element} {name : String} :
    child ∈ e.allNamed name ↔
      child ∈ e.children ∧ child.head.name = name ∧ child.head.uri = e.head.uri := by
  rw [Element.allNamed, List.mem_filter, Element.answersTo, Bool.and_eq_true, beq_iff_eq,
    beq_iff_eq]

/-- The children on the path are all left. -/
theorem Element.allNamed_along (name : String) (path : List String) (e : Element) :
    (e.along (name :: path)).allNamed name = (e.allNamed name).map (Element.along path) := by
  refine CommandTable.allNamed_map (Element.along path) fun child hchild => ?_
  rw [Element.head_along]
  exact (mem_allNamed.mp hchild).2

end Path

end Markup

namespace CommandTable

/-- What a literal is the literal of. -/
inductive Kind where
  | guid
  | id
deriving DecidableEq, Repr

/-- The names of the elements that lead to a literal, from the root to its own. -/
def Kind.path : Kind → List String
  | .guid => ["CommandTable", "Symbols", "GuidSymbol"]
  | .id => ["CommandTable", "Symbols", "GuidSymbol", "IDSymbol"]

/-- A literal of a document. -/
structure Literal where
  /-- What it is the literal of. -/
  kind : Kind
  /-- The name that is declared, empty if there is none. -/
  name : String
  /-- The text of the literal, empty if there is none. -/
  text : String
  /-- Where the tag begins. -/
  position : Text.Position
deriving DecidableEq, Repr

/-- The literal of an element. -/
def Literal.ofElement (kind : Kind) (e : Element) : Literal where
  kind := kind
  name := e.head.plainValue "name"
  text := e.head.plainValue "value"
  position := e.head.position

/-- The literal that an element has at its place: it is in the namespace of the root like all
    elements around it, and their names lead to it. -/
def literal? (uri : Option String) (place : List Head × Element) : Option Literal :=
  let heads := place.1 ++ [place.2.head]
  if heads.all (·.uri == uri) then
    if heads.map (·.name) = Kind.guid.path then some (.ofElement .guid place.2)
    else if heads.map (·.name) = Kind.id.path then some (.ofElement .id place.2)
    else none
  else none

/-- The literals of a document, in the order of their tags. -/
def literals (root : Element) : List Literal :=
  (root.node.placed []).filterMap (literal? root.head.uri)

/-- A symbol by itself. -/
inductive Symbol where
  | guid (name : String) (value : Guid)
  | id (name : String) (value : CommandId)
deriving DecidableEq, Repr

/-- What a literal says. -/
def Literal.read (l : Literal) : Except Error Symbol :=
  match l.kind with
  | .guid =>
      match Guid.parse l.text with
      | .ok value => .ok (.guid l.name value)
      | .error invalid => .error (.guid l.name l.position invalid)
  | .id =>
      match CommandId.parse l.text with
      | .ok value => .ok (.id l.name value)
      | .error invalid => .error (.id l.name l.position invalid)

/-- The symbol of an identifier. -/
def symbolOfId (id : IdSymbol) : Symbol :=
  .id id.name id.value

/-- The symbols of a GUID: its own, and those under it. -/
def symbolsOfGuid (guid : GuidSymbol) : List Symbol :=
  .guid guid.name guid.value :: guid.ids.map symbolOfId

/-- The symbols of a table in a row. -/
def symbols (table : CommandTable) : List Symbol :=
  table.guids.flatMap symbolsOfGuid

section Places

variable {uri : Option String} {around : List Head}

/-- The literals inside of a row of nodes. -/
def literalsIn (uri : Option String) (around : List Head) (nodes : List Node) : List Literal :=
  (Node.placedAll around nodes).filterMap (literal? uri)

/-- Whether tags may lead to a literal. -/
def Leads (uri : Option String) (heads : List Head) : Prop :=
  (∀ head ∈ heads, head.uri = uri) ∧ heads.map (·.name) <+: Kind.id.path

theorem leads_of_literal? {place : List Head × Element} (h : literal? uri place ≠ none) :
    Leads uri (place.1 ++ [place.2.head]) := by
  rw [literal?] at h
  by_cases huri : (place.1 ++ [place.2.head]).all (·.uri == uri) = true
  · rw [if_pos huri] at h
    refine ⟨fun head hhead => beq_iff_eq.mp (List.all_eq_true.mp huri head hhead), ?_⟩
    by_cases hguid : (place.1 ++ [place.2.head]).map (·.name) = Kind.guid.path
    · rw [hguid]
      exact ⟨["IDSymbol"], rfl⟩
    · rw [if_neg hguid] at h
      by_cases hid : (place.1 ++ [place.2.head]).map (·.name) = Kind.id.path
      · exact hid ▸ List.prefix_refl _
      · rw [if_neg hid] at h
        exact absurd rfl h
  · rw [if_neg huri] at h
    exact absurd rfl h

theorem Leads.of_isPrefix {heads more : List Head} (h : Leads uri more) (hheads : heads <+: more) :
    Leads uri heads :=
  ⟨fun head hhead => h.1 head (hheads.subset hhead), (hheads.map _).trans h.2⟩

/-- Where the tags lead to no literal there is none inside. -/
theorem literalsIn_eq_nil {nodes : List Node} (h : ¬ Leads uri around) :
    literalsIn uri around nodes = [] := by
  rw [literalsIn, List.filterMap_eq_nil_iff]
  intro place hplace
  by_contra hsome
  have haround := Node.around_isPrefix_all around nodes place hplace
  exact h ((leads_of_literal? hsome).of_isPrefix (haround.trans (List.prefix_append _ _)))

/-- An element that the tags do not lead to has no literal and none inside. -/
theorem literals_of_not_leads {e : Element} (h : ¬ Leads uri (around ++ [e.head])) :
    (literal? uri (around, e)).toList ++ literalsIn uri (around ++ [e.head]) e.content = [] := by
  have hnone : literal? uri (around, e) = none := by
    by_contra hsome
    exact h (leads_of_literal? hsome)
  rw [hnone, literalsIn_eq_nil h]
  rfl

/-- The literals inside, told by the elements at the top. -/
theorem literalsIn_eq_flatMap (nodes : List Node) :
    literalsIn uri around nodes = (nodes.filterMap Node.element?).flatMap fun e =>
      (literal? uri (around, e)).toList ++ literalsIn uri (around ++ [e.head]) e.content := by
  rw [literalsIn, Node.placedAll_eq_flatMap, List.filterMap_flatMap]
  refine List.flatMap_congr fun e _ => ?_
  rw [List.filterMap_cons, literalsIn]
  cases literal? uri (around, e) with
  | none => rfl
  | some l => rfl

theorem flatMap_eq_filter {α β : Type} {f : α → List β} {p : α → Bool} {as : List α}
    (h : ∀ a ∈ as, p a = false → f a = []) : as.flatMap f = (as.filter p).flatMap f := by
  induction as with
  | nil => rfl
  | cons a as ih =>
      have hrest := ih fun b hb => h b (List.mem_cons_of_mem a hb)
      rw [List.flatMap_cons, hrest, List.filter_cons]
      cases hp : p a with
      | true => rw [if_pos rfl, List.flatMap_cons]
      | false => rw [h a List.mem_cons_self hp, if_neg Bool.false_ne_true, List.nil_append]

/-- One step further the tags lead to a literal if the next name on the path comes. -/
theorem leads_concat_iff {next : String} (huri : ∀ head ∈ around, head.uri = uri)
    (hnext : around.map (·.name) ++ [next] <+: Kind.id.path) {head : Head} :
    Leads uri (around ++ [head]) ↔ head.name = next ∧ head.uri = uri := by
  rw [Leads, List.forall_mem_append, List.forall_mem_singleton, List.map_append, List.map_singleton,
    and_iff_right huri, and_comm]
  refine and_congr_left fun _ => ?_
  constructor
  · intro hhead
    have hsame := (List.prefix_of_prefix_length_le hhead hnext (by simp)).eq_of_length (by simp)
    exact List.singleton_inj.mp (List.append_cancel_left hsame)
  · rintro rfl
    exact hnext

/-- Whether tags of the given names, all in one namespace, lead to an element. -/
structure IsReached (names : List String) (heads : List Head) (e : Element) : Prop where
  /-- The tags have the names. -/
  names : heads.map (·.name) = names
  /-- They are in the namespace of the element. -/
  uris : ∀ head ∈ heads, head.uri = e.head.uri

theorem IsReached.child {names : List String} {heads : List Head} {e child : Element}
    (h : IsReached names heads e) {next : String} (hchild : child ∈ e.allNamed next) :
    IsReached (names ++ [next]) (heads ++ [child.head]) child := by
  rcases mem_allNamed.mp hchild with ⟨_, hname, hsame⟩
  refine ⟨by rw [List.map_append, List.map_singleton, h.names, hname], ?_⟩
  rw [List.forall_mem_append, List.forall_mem_singleton]
  exact ⟨fun head hhead => (h.uris head hhead).trans hsame.symm, rfl⟩

/-- The literal that an element is at the end of a row of names. -/
def literalAt (names : List String) (e : Element) : List Literal :=
  if names = Kind.guid.path then [.ofElement .guid e]
  else if names = Kind.id.path then [.ofElement .id e]
  else []

theorem literal?_of_isReached {names : List String} {e : Element}
    (h : IsReached names (around ++ [e.head]) e) :
    (literal? e.head.uri (around, e)).toList = literalAt names e := by
  have hall : (around ++ [e.head]).all (·.uri == e.head.uri) = true :=
    List.all_eq_true.mpr fun head hhead => beq_iff_eq.mpr (h.uris head hhead)
  rw [literal?, if_pos hall, h.names, literalAt]
  by_cases hguid : names = Kind.guid.path
  · rw [if_pos hguid, if_pos hguid, Option.toList_some]
  · rw [if_neg hguid, if_neg hguid]
    by_cases hid : names = Kind.id.path
    · rw [if_pos hid, if_pos hid, Option.toList_some]
    · rw [if_neg hid, if_neg hid, Option.toList_none]

/-- The literals inside of an element are found at the elements of the next name on the path. -/
theorem IsReached.literalsIn {names : List String} {e : Element} (h : IsReached names around e)
    {next : String} (hnext : names ++ [next] <+: Kind.id.path) :
    literalsIn e.head.uri around e.content = (e.allNamed next).flatMap fun child =>
      literalAt (names ++ [next]) child ++
        literalsIn child.head.uri (around ++ [child.head]) child.content := by
  rw [literalsIn_eq_flatMap, Element.allNamed, Element.children, flatMap_eq_filter
    (p := e.answersTo next)]
  · refine List.flatMap_congr fun child hchild => ?_
    rw [← literal?_of_isReached (h.child hchild), (mem_allNamed.mp hchild).2.2]
  · intro child _ hother
    rw [← h.names] at hnext
    refine literals_of_not_leads ?_
    rw [leads_concat_iff h.uris hnext]
    rintro ⟨hname, hsame⟩
    rw [Element.answersTo, hname, hsame, beq_self_eq_true, beq_self_eq_true] at hother
    exact absurd hother (by decide)

/-- Nothing below an identifier is a literal. -/
theorem IsReached.literalsIn_id {e : Element} (h : IsReached Kind.id.path around e) :
    CommandTable.literalsIn e.head.uri around e.content = [] := by
  rw [literalsIn_eq_flatMap, List.flatMap_eq_nil_iff]
  intro child _
  refine literals_of_not_leads fun hleads => ?_
  -- The path has come to its end.
  have hle := hleads.2.length_le
  rw [List.map_append, h.names, List.length_append, List.map_singleton,
    List.length_singleton] at hle
  exact Nat.not_succ_le_self _ hle

/-- The literals of a document are found level by level. -/
theorem literals_eq_flatMap (root : Element) :
    literals root = (guidElements root).flatMap fun guid =>
      .ofElement .guid guid :: (guid.allNamed "IDSymbol").map (.ofElement .id) := by
  have hreached : IsReached [root.head.name] [root.head] root :=
    ⟨rfl, List.forall_mem_singleton.mpr rfl⟩
  have hroot : literals root = literalsIn root.head.uri [root.head] root.content := by
    have hnone : (literal? root.head.uri ([], root)).toList = [] := by
      rw [literal?_of_isReached hreached, literalAt, if_neg (by simp [Kind.path]),
        if_neg (by simp [Kind.path])]
    rw [literals, Element.node, Node.placed, List.filterMap_cons,
      Option.toList_eq_nil_iff.mp hnone]
    rfl
  rw [hroot, guidElements]
  by_cases hname : root.head.name = "CommandTable"
  · rw [hname] at hreached
    have hsymbols : ["CommandTable"] ++ ["Symbols"] <+: Kind.id.path := by decide
    have hguids : ["CommandTable"] ++ ["Symbols"] ++ ["GuidSymbol"] <+: Kind.id.path := by decide
    have hids : ["CommandTable"] ++ ["Symbols"] ++ ["GuidSymbol"] ++ ["IDSymbol"] <+:
        Kind.id.path := by
      decide
    -- Each level is found inside of the one above it.
    rw [if_pos hname, List.flatMap_assoc, hreached.literalsIn hsymbols]
    refine List.flatMap_congr fun symbols hsection => ?_
    have hreached := hreached.child hsection
    rw [hreached.literalsIn hguids]
    refine List.flatMap_congr fun guid hguid => ?_
    have hreached := hreached.child hguid
    rw [hreached.literalsIn hids, List.map_eq_flatMap]
    refine congrArg (List.cons _) (List.flatMap_congr fun id hid => ?_)
    rw [(hreached.child hid).literalsIn_id]
    rfl
  · rw [if_neg hname, List.flatMap_nil, literalsIn_eq_nil]
    rintro ⟨_, hpath⟩
    exact hname (List.cons_prefix_cons.mp hpath).1

end Places

section Tables

/-- Puts a symbol in front of what is behind it: identifiers that are under no GUID yet, and
    GUIDs with those under them. -/
def Symbol.push : Symbol → List IdSymbol × List GuidSymbol → List IdSymbol × List GuidSymbol
  | .id name value, behind => (⟨name, value⟩ :: behind.1, behind.2)
  | .guid name value, behind => ([], ⟨name, value, behind.1⟩ :: behind.2)

theorem foldr_push_ids (ids : List IdSymbol) (behind : List IdSymbol × List GuidSymbol) :
    (ids.map symbolOfId).foldr Symbol.push behind = (ids ++ behind.1, behind.2) := by
  induction ids with
  | nil => rfl
  | cons id ids ih =>
      rw [List.map_cons, List.foldr_cons, ih]
      rfl

/-- The GUIDs of a table are found again in its symbols. -/
theorem foldr_push_symbols (table : CommandTable) :
    (symbols table).foldr Symbol.push ([], []) = ([], table.guids) := by
  rw [symbols]
  induction table.guids with
  | nil => rfl
  | cons guid guids ih =>
      -- Going from the back, identifiers gather until the GUID that they are under comes.
      rw [List.flatMap_cons, List.foldr_append, ih, symbolsOfGuid, List.foldr_cons, foldr_push_ids,
        List.append_nil]
      rfl

/-- A table is told by its name and its symbols in a row. -/
theorem symbols_injective {table other : CommandTable} (hname : table.name = other.name)
    (h : symbols table = symbols other) : table = other := by
  have hguids : table.guids = other.guids := by
    have hfold := congrArg (List.foldr Symbol.push ([], [])) h
    rw [foldr_push_symbols, foldr_push_symbols] at hfold
    exact congrArg Prod.snd hfold
  cases table with
  | mk name guids =>
      cases hname
      cases hguids
      rfl

end Tables

section Outcome

theorem map_readId (e : Element) :
    (readId e).map (fun id => [symbolOfId id]) = [Literal.ofElement .id e].mapM Literal.read := by
  have hread : (Literal.ofElement .id e).read =
      match CommandId.parse (e.valueOf "value") with
      | .ok value => .ok (.id (e.valueOf "name") value)
      | .error invalid => .error (.id (e.valueOf "name") e.head.position invalid) := by
    rw [e.valueOf_eq_plainValue, e.valueOf_eq_plainValue]
    rfl
  rw [List.mapM_cons, List.mapM_nil, hread, readId]
  cases CommandId.parse (e.valueOf "value") with
  | ok value => rfl
  | error invalid => rfl

/-- The literal of a GUID is read before those under it. -/
theorem map_readGuid (e : Element) :
    (readGuid e).map symbolsOfGuid =
      (.ofElement .guid e :: (e.allNamed "IDSymbol").map (.ofElement .id)).mapM Literal.read := by
  have hread : (Literal.ofElement .guid e).read =
      match Guid.parse (e.valueOf "value") with
      | .ok value => .ok (.guid (e.valueOf "name") value)
      | .error invalid => .error (.guid (e.valueOf "name") e.head.position invalid) := by
    rw [e.valueOf_eq_plainValue, e.valueOf_eq_plainValue]
    rfl
  have hids := mapM_flatMap map_readId (e.allNamed "IDSymbol")
  simp only [← List.map_eq_flatMap] at hids
  -- If the literal of the GUID fails, no identifier is looked at on either side.
  rw [List.mapM_cons, hread, readGuid, ← hids]
  cases Guid.parse (e.valueOf "value") with
  | error invalid => rfl
  | ok value =>
      cases (e.allNamed "IDSymbol").mapM readId with
      | error error => rfl
      | ok ids => rfl

/-- What is read from a root, as symbols in a row, is what its literals say one after another. -/
theorem map_ofRoot (name : String) (root : Element) :
    (ofRoot name root).map symbols = (literals root).mapM Literal.read := by
  rw [literals_eq_flatMap, ← mapM_flatMap map_readGuid, ofRoot]
  cases (guidElements root).mapM readGuid with
  | error error => rfl
  | ok guids => rfl

/-- A table is read from a root exactly if it has the name that it is read for and its symbols
    are those of the literals. -/
theorem ofRoot_eq_ok_iff {name : String} {root : Element} {table : CommandTable} :
    ofRoot name root = .ok table ↔ table.name = name ∧
      List.Forall₂ (fun l symbol => l.read = .ok symbol) (literals root) (symbols table) := by
  rw [← exists_eq_ok_iff_of_map (map_ofRoot name root)]
  constructor
  · intro h
    exact ⟨name_of_ofRoot h, table, h, rfl⟩
  · rintro ⟨hname, other, hother, hsymbols⟩
    -- Both tables have the name and the symbols.
    rw [hother, symbols_injective ((name_of_ofRoot hother).trans hname.symm) hsymbols]

end Outcome

section Path

/-- The names of the elements below the root that lead to symbols. -/
def symbolPath : List String :=
  ["Symbols", "GuidSymbol", "IDSymbol"]

theorem readId_along (e : Element) : readId (e.along []) = readId e := by
  rw [readId, readId, Element.valueOf_along, Element.valueOf_along, Element.head_along]
  rfl

theorem readGuid_along (e : Element) : readGuid (e.along ["IDSymbol"]) = readGuid e := by
  have hids : ((e.along ["IDSymbol"]).allNamed "IDSymbol").mapM readId =
      (e.allNamed "IDSymbol").mapM readId := by
    rw [Element.allNamed_along, List.mapM_map]
    exact congrArg (List.mapM · _) (funext readId_along)
  rw [readGuid, readGuid, Element.valueOf_along, Element.valueOf_along, Element.head_along, hids]
  rfl

theorem guidElements_along (root : Element) :
    guidElements (root.along symbolPath) =
      (guidElements root).map (Element.along ["IDSymbol"]) := by
  have hname : (root.along symbolPath).head.name = root.head.name := by
    rw [Element.head_along]
    rfl
  rw [guidElements, guidElements, hname, symbolPath]
  by_cases hroot : root.head.name = "CommandTable"
  · rw [if_pos hroot, if_pos hroot, Element.allNamed_along, List.flatMap_map, List.map_flatMap]
    simp only [Element.allNamed_along]
  · rw [if_neg hroot, if_neg hroot, List.map_nil]

/-- What is not on the path of symbols, and what their tags say in other namespaces, has no part
    in what is read. -/
theorem ofRoot_along (name : String) (root : Element) :
    ofRoot name (root.along symbolPath) = ofRoot name root := by
  rw [ofRoot, ofRoot, guidElements_along, List.mapM_map]
  have hread : readGuid ∘ Element.along ["IDSymbol"] = readGuid := funext readGuid_along
  rw [hread]

end Path

/-- Symbols are extracted exactly, and the first literal that cannot be read is at fault. From a
    document with another root nothing is read. Otherwise the table is the one of that name whose
    symbols, in a row, are what the literals say; there is one if all of them can be read. If not,
    the error is that of the first. Documents that agree on the path of symbols are read alike. -/
theorem parse_of_literals {name text : String} {root : Element}
    (hroot : Markup.parse text = .ok root) :
    (root.head.name ≠ "CommandTable" → parse name text = .ok { name := name, guids := [] }) ∧
    (∀ table, parse name text = .ok table ↔ table.name = name ∧
      List.Forall₂ (fun l symbol => l.read = .ok symbol) (literals root) (symbols table)) ∧
    ((∃ table, parse name text = .ok table) ↔ ∀ l ∈ literals root, ∃ symbol, l.read = .ok symbol) ∧
    (∀ error, parse name text = .error error ↔ FailsFirst Literal.read (literals root) error) ∧
    ∀ other otherText, Markup.parse otherText = .ok other →
      other.along symbolPath = root.along symbolPath →
        parse name otherText = parse name text := by
  have hparse : parse name text = ofRoot name root := by rw [parse, hroot]
  have hmap := map_ofRoot name root
  rw [hparse]
  refine ⟨?_, fun table => ofRoot_eq_ok_iff, exists_ok_iff_of_map hmap,
    fun error => eq_error_iff_of_map hmap, ?_⟩
  · intro hname
    rw [ofRoot, guidElements, if_neg hname]
    rfl
  · intro other otherText hother hsame
    calc parse name otherText = ofRoot name other := by rw [parse, hother]
      _ = ofRoot name (other.along symbolPath) := (ofRoot_along name other).symm
      _ = ofRoot name (root.along symbolPath) := by rw [hsame]
      _ = ofRoot name root := ofRoot_along name root

/-- A document where elements that look like a symbol come before the only one: one is not in a
    section, and one is in another namespace. -/
def lookalikes : String :=
  "<CommandTable xmlns='u' xmlns:x='v'>\n <GuidSymbol value='0'/><Symbols><x:GuidSymbol " ++
    "value='0'/>\n<GuidSymbol name='g' value='7' x:value='0'/></Symbols></CommandTable>"

/-- The root of that document. -/
def lookalikesRoot : Element where
  head := ⟨some "u", "CommandTable", [], ⟨0, 0⟩⟩
  content :=
    [.text "\n ",
      .element ⟨some "u", "GuidSymbol", [⟨none, "value", "0"⟩], ⟨1, 1⟩⟩ [],
      .element ⟨some "u", "Symbols", [], ⟨1, 24⟩⟩
        [.element ⟨some "v", "GuidSymbol", [⟨none, "value", "0"⟩], ⟨1, 33⟩⟩ [],
          .text "\n",
          .element ⟨some "u", "GuidSymbol",
            [⟨none, "name", "g"⟩, ⟨none, "value", "7"⟩, ⟨some "v", "value", "0"⟩], ⟨2, 0⟩⟩ []]]

/-- What is at fault in a document with look-alikes is the symbol, and its literal is what its
    attribute without a namespace says. -/
theorem parse_of_literals_lookalikes :
    Markup.parse lookalikes = .ok lookalikesRoot ∧
      literals lookalikesRoot = [⟨.guid, "g", "7", ⟨2, 0⟩⟩] ∧
      parse "menus" lookalikes = .error (.guid "g" ⟨2, 0⟩ ⟨"7"⟩) := by
  have hroot : Markup.parse lookalikes = .ok lookalikesRoot :=
    parse_eq_of_map_events (by decide +kernel)
  have hliterals : literals lookalikesRoot = [⟨.guid, "g", "7", ⟨2, 0⟩⟩] := by decide
  have hfails : FailsFirst Literal.read (literals lookalikesRoot) (.guid "g" ⟨2, 0⟩ ⟨"7"⟩) := by
    rw [hliterals]
    exact ⟨[], _, [], rfl, List.forall_mem_nil _, by decide⟩
  have houtcome := @parse_of_literals "menus" lookalikes lookalikesRoot hroot
  exact ⟨hroot, hliterals, (houtcome.2.2.2.1 _).mpr hfails⟩

end CommandTable

end PackageSymbols

import IdlScope.Table

/-!
# Name tables — allocated names, each held by one key

A name table hands out names within one naming space: the globals of a file, the members of
a structure, the parameters of a function. A name is handed out for a *key*, which is
usually the source name it stands for; asking again for the key gives the same name.
Two keys never hold one name: a candidate that is taken grows underscores until it is free.

The table is its entries in the order of allocation. The two views of it, the name of a key
(`nameOf?`) and the key of a name (`keyOf?`), are read from that one list.

A name index keeps the same apart: keys by name, names by key, and the order of allocation. Each
request updates the three of them one by one, and asks only the one that has the answer.
-/

namespace IdlScope

/-- A name could not be reserved because `owner` stands in its way. -/
structure NameConflict where
  name : String
  key : String
  owner : String
  deriving DecidableEq

namespace NameConflict

/-- What is said about the conflict. -/
def message (c : NameConflict) : String :=
  "cannot reserve '" ++ c.name ++ "' for '" ++ c.key ++ "': held by '" ++ c.owner ++ "'"

end NameConflict

/-- The allocated names of one naming space. -/
structure NameTable where
  /-- Keys and their names in the order of allocation. -/
  entries : List (String × String)
  deriving DecidableEq

namespace NameTable

/-- The table that holds no name. -/
def empty : NameTable := ⟨[]⟩

/-- The name that a key holds. -/
def nameOf? (t : NameTable) (key : String) : Option String :=
  t.entries.lookup key

/-- The key that holds a name. -/
def keyOf? (t : NameTable) (name : String) : Option String :=
  (t.entries.find? (·.2 == name)).map Prod.fst

/-- Is the name allocated? -/
def holds (t : NameTable) (name : String) : Bool :=
  (t.keyOf? name).isSome

/-- The names in the order of allocation. -/
def names (t : NameTable) : List String :=
  t.entries.map Prod.snd

/-- The number of names. -/
def size (t : NameTable) : Nat :=
  t.entries.length

/-- The first of `name`, `name_`, `name__`, … that is not taken, after at most `n` steps. -/
def firstFree (taken : String → Bool) : Nat → String → String
  | 0, name => name
  | n + 1, name => if taken name then firstFree taken n (name.push '_') else name

/-- The name that a candidate leads to: a table of `n` names blocks at most `n` of them. -/
def fresh (t : NameTable) (candidate : String) : String :=
  firstFree t.holds t.size candidate

/-- The table with one more entry. -/
def insert (t : NameTable) (key name : String) : NameTable :=
  ⟨t.entries ++ [(key, name)]⟩

/-- The name of a key, allocated from the candidate if the key holds none. -/
def add (t : NameTable) (candidate key : String) : String × NameTable :=
  match t.nameOf? key with
  | some name => (name, t)
  | none => (t.fresh candidate, t.insert key (t.fresh candidate))

/-- Gives exactly `name` to `key`; nothing happens if the key holds that name already. -/
def reserve (t : NameTable) (name key : String) : Except NameConflict NameTable :=
  match t.keyOf? name with
  | some owner => if owner = key then .ok t else .error ⟨name, key, owner⟩
  | none =>
    match t.nameOf? key with
    | some held => .error ⟨name, key, held⟩
    | none => .ok (t.insert key name)

/-- A one-line description. -/
def summary (t : NameTable) : String :=
  "Namespace \x7b count: " ++ toString t.size ++ " \x7d"

/-! ## The views after each operation -/

@[simp] theorem names_empty : empty.names = [] := rfl

@[simp] theorem names_insert (t : NameTable) (key name : String) :
    (t.insert key name).names = t.names ++ [name] := by
  simp [names, insert]

/-- A key that holds a name gets it back and the table stays as it is. -/
theorem add_of_nameOf? {t : NameTable} {key name : String} (h : t.nameOf? key = some name)
    (candidate : String) : t.add candidate key = (name, t) := by
  simp [add, h]

/-- A key without a name is entered under the name that its candidate leads to. -/
theorem add_of_nameOf?_eq_none {t : NameTable} {key : String} (h : t.nameOf? key = none)
    (candidate : String) :
    t.add candidate key = (t.fresh candidate, t.insert key (t.fresh candidate)) := by
  simp [add, h]

end NameTable

/-! ## Name indexes -/

/-- What a name table tells, in three structures that are updated one by one. -/
structure NameIndex where
  /-- The key of each allocated name. -/
  byName : Table String
  /-- The name of each key. -/
  byKey : Table String
  /-- The names in the order of allocation. -/
  order : List String

namespace NameIndex

/-- The index that holds no name. -/
def empty : NameIndex := ⟨.empty, .empty, []⟩

/-- The index after a name was given to a key. -/
def record (x : NameIndex) (name key : String) : NameIndex where
  byName := x.byName.set name key
  byKey := x.byKey.set key name
  order := x.order ++ [name]

/-- The name that a candidate leads to. -/
def fresh (x : NameIndex) (candidate : String) : String :=
  NameTable.firstFree x.byName.contains x.byName.entries.length candidate

/-- The name of a key, allocated from the candidate if the key holds none. -/
def add (x : NameIndex) (candidate key : String) : String × NameIndex :=
  match x.byKey.get? key with
  | some existing => (existing, x)
  | none => (x.fresh candidate, x.record (x.fresh candidate) key)

/-- Gives exactly `name` to `key`; nothing happens if the key holds that name already. -/
def reserve (x : NameIndex) (name key : String) : Except NameConflict NameIndex :=
  match x.byName.get? name with
  | some owner => if owner = key then .ok x else .error ⟨name, key, owner⟩
  | none =>
    match x.byKey.get? key with
    | some held => .error ⟨name, key, held⟩
    | none => .ok (x.record name key)

end NameIndex

end IdlScope

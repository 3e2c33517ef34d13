import IdlScope.Naming.NameTable

/-!
# Import tables — the imports of one generated file

Each import path of a generated file has one alias, fixed when the path is first registered
and never shared with another path. An import is used or unused; registering a path again
marks it used.

The aliases form a name table whose keys are the paths. It is read from the list of imports
(`ImportTable.aliases`). An import index keeps it beside the imports instead, as an index of its
own that is asked for the alias of every new path.
-/

namespace IdlScope

/-- One import of a generated file; `name` is its alias. -/
structure Import where
  name : String
  path : String
  used : Bool
  deriving DecidableEq

/-- The imports of a generated file in the order of registration. -/
structure ImportTable where
  imports : List Import
  deriving DecidableEq

namespace ImportTable

/-- The table without imports. -/
def empty : ImportTable := ⟨[]⟩

/-- The aliases as a name table over the paths. -/
def aliases (t : ImportTable) : NameTable :=
  ⟨t.imports.map fun i => (i.path, i.name)⟩

/-- The import of a path. -/
def import? (t : ImportTable) (path : String) : Option Import :=
  t.imports.find? (·.path == path)

/-- The alias of a path. -/
def alias? (t : ImportTable) (path : String) : Option String :=
  (t.import? path).map Import.name

/-- Is the path registered and used? -/
def isUsed (t : ImportTable) (path : String) : Bool :=
  (t.import? path).any Import.used

/-- Sets the mark of a path; an unknown path changes nothing. -/
def setUsed (t : ImportTable) (path : String) (used : Bool) : ImportTable :=
  ⟨t.imports.map fun i => if i.path = path then { i with used := used } else i⟩

/-- Marks a path used. -/
def markUsed (t : ImportTable) (path : String) : ImportTable :=
  t.setUsed path true

/-- Marks a path unused. -/
def markUnused (t : ImportTable) (path : String) : ImportTable :=
  t.setUsed path false

/-- The alias of a path, registered under a name derived from `preferred` if it is new. -/
def add (t : ImportTable) (preferred path : String) : String × ImportTable :=
  match t.alias? path with
  | some name => (name, t.markUsed path)
  | none =>
    let name := t.aliases.fresh preferred
    (name, ⟨t.imports ++ [⟨name, path, true⟩]⟩)

/-- The imports in use. -/
def used (t : ImportTable) : List Import :=
  t.imports.filter Import.used

/-- The imports not in use. -/
def unused (t : ImportTable) : List Import :=
  t.imports.filter (!·.used)

/-- The number of imports. -/
def size (t : ImportTable) : Nat :=
  t.imports.length

/-! ## What an operation leaves alone -/

/-- Marking changes no alias and no path. -/
@[simp] theorem aliases_setUsed (t : ImportTable) (path : String) (used : Bool) :
    (t.setUsed path used).aliases = t.aliases := by
  simp only [aliases, setUsed, List.map_map, NameTable.mk.injEq]
  apply List.map_congr_left
  intro i _
  by_cases h : i.path = path <;> simp [h]

end ImportTable

/-! ## Import indexes -/

/-- What an import table tells, with the aliases kept beside the imports. -/
structure ImportIndex where
  /-- The import of each path, in the order of registration. -/
  imports : Table Import
  /-- The alias of each path. -/
  aliases : NameIndex

namespace ImportIndex

/-- The index without imports. -/
def empty : ImportIndex := ⟨.empty, .empty⟩

/-- Sets the mark of a path; an unknown path changes nothing. -/
def setUsed (x : ImportIndex) (path : String) (used : Bool) : ImportIndex :=
  match x.imports.get? path with
  | some i => { x with imports := x.imports.set path { i with used := used } }
  | none => x

/-- The alias of a path, registered under a name derived from `preferred` if it is new. -/
def add (x : ImportIndex) (preferred path : String) : String × ImportIndex :=
  match x.imports.get? path with
  | some i => (i.name, x.setUsed path true)
  | none =>
    let (name, aliases) := x.aliases.add preferred path
    (name, ⟨x.imports.set path ⟨name, path, true⟩, aliases⟩)

end ImportIndex

end IdlScope

import IdlScope.Idl.Declaration
import IdlScope.Naming.NameTable

/-!
# Structures — structs, unions and exceptions with their fields

A structure holds one slot for each field of its declaration. A slot that is expanded holds
the fields of the structure that its field refers to as well; generated code has these
fields in its place.

Fields pass through several stages: they are named, then resolved, then rendered. A
structure is therefore a functor in the type of its fields, and `mapM` is the one way from
a stage to the next: it visits the fields slot by slot, each slot's own field before the
fields it expands to.
-/

namespace IdlScope

/-- What kind of structure it is. -/
inductive StructKind where
  | struct
  | union
  | exception
  deriving DecidableEq

namespace StructKind

/-- How the kind is spelled. -/
def spelling : StructKind → String
  | .struct => "struct"
  | .union => "union"
  | .exception => "exception"

/-- The kind that a declaration spells, unless it is unknown. -/
def ofSpelling? (s : String) : Option StructKind :=
  [.struct, .union, .exception].find? (·.spelling == s)

@[simp] theorem ofSpelling?_spelling (k : StructKind) : ofSpelling? k.spelling = some k := by
  cases k <;> decide

/-- The category of the types of this kind. -/
def category : StructKind → Category
  | .struct => .struct
  | .union => .union
  | .exception => .exception

end StructKind

/-! ## Slots -/

/-- A field and, if it is expanded, the fields in its place. -/
structure Slot (α : Type) where
  field : α
  expanded : Option (List α)

namespace Slot

variable {α β : Type}

/-- Is the field expanded? -/
def isExpanded (s : Slot α) : Bool :=
  s.expanded.isSome

/-- The fields that the slot expands to. -/
def children (s : Slot α) : List α :=
  s.expanded.getD []

/-- The field, then the fields that it expands to. -/
def all (s : Slot α) : List α :=
  s.field :: s.children

/-- The fields of generated code: the field itself or the fields in its place. -/
def flattened (s : Slot α) : List α :=
  match s.expanded with
  | none => [s.field]
  | some fields => fields

/-- Visits the field, then the fields it expands to. -/
def mapM {m : Type → Type} [Monad m] (f : α → m β) (s : Slot α) : m (Slot β) := do
  let field ← f s.field
  match s.expanded with
  | none => return ⟨field, none⟩
  | some fields => return ⟨field, some (← fields.mapM f)⟩

end Slot

/-! ## Structures -/

/-- The name of the constructor function of a type. -/
def constructorOf (name : String) : String := "New" ++ name

/-- The name of the table of field numbers of a structure. -/
def idTableOf (name : String) : String := "fieldIDToName_" ++ name

/-- A struct, union or exception, declared or made up for a function. -/
structure Structure (α : Type) where
  decl : StructDecl
  /-- The allocated name. -/
  name : String
  kind : StructKind
  /-- The methods every structure of its kind has; fields stay clear of their names. -/
  methods : List String
  /-- The names of its methods, fields and accessors. -/
  members : NameTable
  slots : List (Slot α)
  isAlias : Bool
  /-- Was it made up for a function? -/
  madeUp : Bool

namespace Structure

variable {α β : Type}

/-- The name under which the source, or the generator for a made-up one, knows it. -/
def source (s : Structure α) : String := s.decl.name

/-- The name of its constructor function. -/
def constructorName (s : Structure α) : String := constructorOf s.name

/-- The name of its table of field numbers. -/
def idTableName (s : Structure α) : String := idTableOf s.name

/-- Every field, each declared one before the fields it expands to. -/
def allFields (s : Structure α) : List α :=
  s.slots.flatMap Slot.all

/-- The fields of generated code. -/
def flattenedFields (s : Structure α) : List α :=
  s.slots.flatMap Slot.flattened

/-- The fields in place of others. -/
def expandedFields (s : Structure α) : List α :=
  s.slots.flatMap Slot.children

/-- Visits every field in order; `f` is told the source name of the structure. -/
def mapM {m : Type → Type} [Monad m] (f : String → α → m β) (s : Structure α) :
    m (Structure β) := do
  return { s with slots := ← s.slots.mapM (Slot.mapM (f s.source)) }

end Structure

/-! ## The structures of a file -/

/-- The structures of a file in four lists. -/
structure StructureLists (α : Type) where
  structs : List (Structure α)
  unions : List (Structure α)
  exceptions : List (Structure α)
  /-- The argument and result structures of functions. -/
  madeUp : List (Structure α)

namespace StructureLists

variable {α β : Type}

/-- No structures. -/
def empty : StructureLists α := ⟨[], [], [], []⟩

/-- Every structure, the made-up ones last. -/
def all (l : StructureLists α) : List (Structure α) :=
  l.structs ++ l.unions ++ l.exceptions ++ l.madeUp

/-- The first structure with a source name. -/
def find? (l : StructureLists α) (source : String) : Option (Structure α) :=
  l.all.find? (·.source == source)

/-- Adds a structure at the end of its list. -/
def push (l : StructureLists α) (s : Structure α) : StructureLists α :=
  if s.madeUp then { l with madeUp := l.madeUp ++ [s] }
  else
    match s.kind with
    | .struct => { l with structs := l.structs ++ [s] }
    | .union => { l with unions := l.unions ++ [s] }
    | .exception => { l with exceptions := l.exceptions ++ [s] }

/-- Visits every field of every structure in order. -/
def mapM {m : Type → Type} [Monad m] (f : String → α → m β) (l : StructureLists α) :
    m (StructureLists β) := do
  return {
    structs := ← l.structs.mapM (Structure.mapM f)
    unions := ← l.unions.mapM (Structure.mapM f)
    exceptions := ← l.exceptions.mapM (Structure.mapM f)
    madeUp := ← l.madeUp.mapM (Structure.mapM f) }

end StructureLists

end IdlScope

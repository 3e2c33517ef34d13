import IdlScope.Naming.Parameter
import IdlScope.Scope.FieldLayout
import IdlScope.Scope.Lookup
import IdlScope.Target.Tags

/-!
# Members — the names inside a structure

The methods, the storage and the accessors of a structure share one name table. Its methods
come first, then the accessors of all declared fields, then field by field the storage of
the field with the accessors and the storage of everything it expands to. A candidate that
is taken grows underscores, so this order says who keeps the plain name.

All that can go wrong is found in planning: which fields expand, how they are numbered, and
how they are spelled. Allocating names for a plan always succeeds.
-/

namespace IdlScope

/-- The exported name of a source name of a file. -/
def identified (file raw : String) : Except BuildError String :=
  match Naming.identify raw with
  | some name => .ok name
  | none => .error (.invalidIdentifier file raw)

/-! ## Planning fields -/

/-- A field whose names are still to be allocated. -/
structure FieldPlan where
  /-- The declaration, with the field's number in this structure. -/
  decl : FieldDecl
  /-- What the names of the field are made from. -/
  stem : String
  isNested : Bool
  /-- The key of the field, from which the keys of its accessors are made. -/
  key : String
  /-- The key of its storage. -/
  storageKey : String
  origin : Option Origin

namespace FieldDecl

/-- Is the field spelled by the name of its type? -/
def isNested (o : Options) (f : FieldDecl) : Bool :=
  o.nestedNames && f.type.category.isStructLike && (Flag.read f.annotations nestedKey).isTrue

/-- The source name that the field is spelled by. -/
def spelledBy (o : Options) (f : FieldDecl) : String :=
  if f.isNested o then f.type.bareName else f.name

/-- The plan of a field that the structure declares itself. -/
def plan (o : Options) (file : String) (f : FieldDecl) : Except BuildError FieldPlan := do
  let stem ← identified file (f.spelledBy o)
  return {
    decl := f, stem := stem, isNested := f.isNested o, key := f.name, storageKey := f.name,
    origin := none }

/-- The plan of a child in place of its parent. -/
def childPlan (o : Options) (file structureName : String) (home : Home)
    (parent child : FieldDecl) : Except BuildError FieldPlan :=
  match expandedId? child.id parent.id with
  | none => .error (.idOutOfRange file structureName child.name)
  | some id => do
    let stem ← identified file (child.spelledBy o)
    let key := parent.name ++ "." ++ child.name
    return {
      decl := { child with id := id }, stem := stem, isNested := child.isNested o, key := key,
      storageKey := Naming.synthetic ("expand:" ++ key),
      origin := some ⟨child, parent.name, home⟩ }

/-- The structure that the field expands to and the place that declares it. -/
def expansion? (f : FieldDecl) (l : Library) (p : Place) : Option (Place × StructDecl) :=
  if f.type.category.isStructLike then
    (l.structureOf? p f.type).filter fun found => f.expandsInto (some found.2)
  else none

end FieldDecl

/-- The plans of all fields of a structure: every declared field is planned before any child. -/
def planSlots (o : Options) (l : Library) (p : Place) (s : StructDecl) :
    Except BuildError (List (Slot FieldPlan)) := do
  let file := p.directory.filename
  let plans ← s.fields.mapM (FieldDecl.plan o file)
  plans.mapM fun plan =>
    match plan.decl.expansion? l p with
    | none => .ok ⟨plan, none⟩
    | some (q, target) => do
      let children ← target.fields.mapM (FieldDecl.childPlan o file s.name q.home plan.decl)
      return ⟨plan, some children⟩

/-- The first plan whose number is among those seen or has an earlier plan of the list. -/
def firstRepeated? (seen : List Int) : List FieldPlan → Option FieldPlan
  | [] => none
  | f :: fs => if f.decl.id ∈ seen then some f else firstRepeated? (f.decl.id :: seen) fs

/-- The first child whose number is taken. An expanded field leaves its own number free. -/
def takenId? (slots : List (Slot FieldPlan)) : Option FieldPlan :=
  let own := slots.filter fun s => !s.isExpanded
  firstRepeated? (own.map (·.field.decl.id)) (slots.flatMap Slot.children)

/-! ## Allocating names -/

/-- A step that allocates names. -/
abbrev Allocate := StateM NameTable

/-- Allocates one name. -/
def allocate (candidate key : String) : Allocate String := fun t => t.add candidate key

namespace AccessorRole

/-- The name that an accessor gets if nothing stands in its way. -/
def candidate (role : AccessorRole) (stem : String) (id : Int) : String :=
  match role with
  | .get => "Get" ++ stem
  | .set => "Set" ++ stem
  | .isSet => "IsSet" ++ stem
  | .read => "ReadField" ++ Naming.idSuffix id
  | .write => "writeField" ++ Naming.idSuffix id
  | .deepEqual => "Field" ++ Naming.idSuffix id ++ "DeepEqual"

/-- The word for the role in keys. -/
def keyWord : AccessorRole → String
  | .get => "get"
  | .set => "set"
  | .isSet => "isset"
  | .read => "read"
  | .write => "write"
  | .deepEqual => "deepequal"

/-- The key of the accessor of a field. -/
def key (role : AccessorRole) (fieldKey : String) : String :=
  Naming.synthetic (role.keyWord ++ ":" ++ fieldKey)

/-- The accessors that a field has. -/
def ofField (o : Options) (f : FieldDecl) : List AccessorRole :=
  [.get] ++ (if o.setters then [.set] else []) ++
    (if f.isOptional || f.type.category.isStructLike then [.isSet] else []) ++
    [.read, .write] ++ (if o.deepEqual then [.deepEqual] else [])

end AccessorRole

namespace FieldPlan

/-- Allocates the accessors of a field. -/
def accessors (o : Options) (f : FieldPlan) : Allocate (List Accessor) :=
  (AccessorRole.ofField o f.decl).mapM fun role => do
    return ⟨role, ← allocate (role.candidate f.stem f.decl.id) (role.key f.key)⟩

/-- The binding tags of a field. -/
def tags (o : Options) (f : FieldPlan) : Option String :=
  if o.bindingTags then
    o.language.bindingTags f.decl.name f.decl.id f.decl.requiredness.tagWord f.decl.isOptional
  else none

/-- Allocates the storage of a field that has its accessors. -/
def named (o : Options) (f : FieldPlan) (accessors : List Accessor) : Allocate NamedField := do
  let name ← allocate f.stem f.storageKey
  return {
    decl := f.decl
    name := name
    propertyName := o.propertyNaming.spell f.decl.name
    accessors := accessors
    isNested := f.isNested
    isResponse := false
    origin := f.origin
    tags := f.tags o }

/-- Allocates every name of a child. -/
def namedChild (o : Options) (f : FieldPlan) : Allocate NamedField := do
  f.named o (← f.accessors o)

end FieldPlan

/-- Allocates the storage of a slot whose own field has its accessors. -/
def nameSlot (o : Options) (s : Slot FieldPlan) (accessors : List Accessor) :
    Allocate (Slot NamedField) := do
  let field ← s.field.named o accessors
  match s.expanded with
  | none => return ⟨field, none⟩
  | some plans => return ⟨field, some (← plans.mapM (FieldPlan.namedChild o))⟩

/-- Allocates the names of all fields of a structure. -/
def nameSlots (o : Options) (slots : List (Slot FieldPlan)) :
    Allocate (List (Slot NamedField)) := do
  let accessors ← slots.mapM fun s => s.field.accessors o
  (slots.zip accessors).mapM fun s => nameSlot o s.1 s.2

/-! ## Methods -/

/-- The methods of a structure. Made-up structures have only those that all have. -/
def methodNames (o : Options) (kind : StructKind) (madeUp : Bool) : List String :=
  ["Read", "Write", "String"] ++
    if madeUp then []
    else
      (if kind = .union then ["CountSetFields"] else []) ++
      (if kind = .exception then ["Error"] else []) ++
      (if o.keepUnknownFields then ["CarryingUnknownFields"] else []) ++
      (if o.deepEqual then ["DeepEqual"] else [])

/-- The name table of a structure that has only methods. -/
def methodTable (methods : List String) : NameTable :=
  ⟨methods.map fun m => (Naming.synthetic ("method:" ++ m), m)⟩

/-! ## Responses -/

/-- The name of the field that holds the response of a function. -/
def responseField : String := "success"

/-- Marks the first field that is called like a response as one. -/
def markResponse : List (Slot NamedField) → List (Slot NamedField)
  | [] => []
  | s :: ss =>
    if s.field.decl.name = responseField then
      { s with field := { s.field with isResponse := true } } :: ss
    else s :: markResponse ss

end IdlScope

import IdlScope.Scope.Members

/-!
# Rosters — the names of a file

A roster gives every declaration of a file its name, before any type is resolved. Names are
given in a fixed order: services with the structures made up for their functions, then
structs, unions and exceptions, then enums, typedefs and constants. Where two candidates
meet, the one that comes first in this order keeps the plain name.

The names that code derives from an allocated name, such as constructors and clients, have
to be exactly what they are; if one of them is taken, the file has no scope.
-/

namespace IdlScope

/-- The names of a file. -/
structure Roster where
  globals : NameTable
  declared : Table Declared
  structures : StructureLists NamedField
  enums : List Enum
  typedefs : List NamedTypedef
  constants : List NamedConstant
  services : List NamedService
  expansions : Table ExpansionRecord
  diagnostics : List Diagnostic

/-- The roster without names. -/
def Roster.empty : Roster :=
  ⟨.empty, .empty, .empty, [], [], [], [], .empty, []⟩

/-- What naming goes by: the options, the files built so far, and the file itself. -/
structure Site where
  options : Options
  library : Library
  place : Place

/-- A step of naming. -/
abbrev Install := StateT Roster (Except BuildError)

namespace Site

/-- The name of the file. -/
def file (w : Site) : String := w.place.directory.filename

/-! ## Global names -/

/-- Does the name look like one that a generator derives from another? -/
def looksDerived (name : String) : Bool :=
  Text.startsWith "New" name || Text.endsWith "Args" name || Text.endsWith "Result" name

/-- The name that a declaration asks for. -/
def globalCandidate (w : Site) (source : String) (madeUp : Bool) : Except BuildError String := do
  let name ← identified w.file source
  return if w.options.compatibleNames && !madeUp && looksDerived name then name.push '_' else name

/-- Allocates the name of a declaration. -/
def allocateGlobal (w : Site) (source : String) (madeUp : Bool) : Install String := do
  let candidate ← w.globalCandidate source madeUp
  let r ← get
  let (name, globals) := r.globals.add candidate source
  set { r with globals := globals }
  return name

/-- Takes exactly the given name. -/
def reserveGlobal (w : Site) (name key : String) : Install Unit := do
  let r ← get
  match r.globals.reserve name (Naming.synthetic key) with
  | .ok globals => set { r with globals := globals }
  | .error conflict => throw (.nameConflict w.file conflict)

/-- Enters a declaration for look-ups. -/
def declare (source name : String) (kind : DeclKind) : Install Unit :=
  modify fun r => { r with declared := r.declared.set source ⟨name, kind⟩ }

/-- Notes what a build should tell. -/
def report (ds : List Diagnostic) : Install Unit :=
  modify fun r => { r with diagnostics := r.diagnostics ++ ds }

/-! ## Structures -/

/-- What a structure is there for. -/
inductive Purpose where
  /-- It is declared in the source. -/
  | declared
  /-- It holds the arguments of a function. -/
  | arguments
  /-- It holds the response of a function. -/
  | result
  deriving DecidableEq

/-- The boolean annotations that have several values. -/
def ambiguousFlags (w : Site) (owner : String) (as : Annotations) (keys : List String) :
    List Diagnostic :=
  keys.filterMap fun key =>
    match Flag.read as key with
    | .ambiguous count => some (.multipleValues w.file owner key count)
    | _ => none

/-- What is to be told about the annotations of a structure and of its fields. -/
def flagReports (w : Site) (s : StructDecl) : List Diagnostic :=
  w.ambiguousFlags s.name s.annotations [expandableKey, aliasKey] ++
    s.fields.flatMap fun f =>
      w.ambiguousFlags (s.name ++ "." ++ f.name) f.annotations [expandKey, nestedKey]

/-- The slots in the order of alignment, and a report if that is another order. -/
def arrangeSlots (w : Site) (s : StructDecl) (slots : List (Slot NamedField)) :
    List (Slot NamedField) × List Diagnostic :=
  let decls (slots : List (Slot NamedField)) := slots.map (·.field.decl)
  let arranged := arrange (·.field.decl) slots
  if (decls arranged).map FieldDecl.id = (decls slots).map FieldDecl.id then (arranged, [])
  else (arranged, [.fieldsReordered w.file s.name (structSize (decls slots))
    (structSize (decls arranged))])

/-- The record of a structure in which a field expands. -/
def expansionRecord? (slots : List (Slot NamedField)) : Option ExpansionRecord :=
  if slots.any Slot.isExpanded then
    some (.ofList (slots.map fun s => (s.field.decl.name, s.isExpanded)))
  else none

/-- Names the fields of a structure that has its own name. -/
def nameFields (w : Site) (s : StructDecl) (name : String) (kind : StructKind)
    (purpose : Purpose) : Install (Structure NamedField) := do
  let plans ← planSlots w.options w.library w.place s
  let methods := methodNames w.options kind (purpose != .declared)
  let (slots, members) := nameSlots w.options plans (methodTable methods)
  if let some taken := takenId? plans then
    throw (.repeatedId w.file s.name taken.decl.name taken.decl.id)
  let (slots, reports) :=
    if w.options.reorderFields && purpose == .declared then w.arrangeSlots s slots else (slots, [])
  report reports
  return {
    decl := s
    name := name
    kind := kind
    methods := methods
    members := members
    slots := if purpose = .result then markResponse slots else slots
    isAlias := w.options.markAliases && (Flag.read s.annotations aliasKey).isTrue
    madeUp := purpose != .declared }

/-- Names a structure with its fields and lists it; its name. A structure of an unknown kind
gets its name and is not listed. -/
def addStructure (w : Site) (s : StructDecl) (purpose : Purpose) : Install String := do
  let name ← w.allocateGlobal s.name (purpose != .declared)
  w.reserveGlobal (constructorOf name) ("new:" ++ s.name)
  w.reserveGlobal (idTableOf name) ("ids:" ++ s.name)
  match StructKind.ofSpelling? s.category with
  | none =>
    report [.unknownCategory w.file s.name s.category]
    return name
  | some kind =>
    if purpose = .declared then declare s.name name (.structLike kind)
    report (w.flagReports s)
    let named ← w.nameFields s name kind purpose
    modify fun r => { r with
      structures := r.structures.push named
      expansions :=
        match expansionRecord? named.slots with
        | some record => r.expansions.setNew s.name record
        | none => r.expansions }
    return name

/-! ## Services -/

/-- The structure of the arguments of a function. -/
def argsStruct (service : ServiceDecl) (f : FunctionDecl) : StructDecl where
  category := "struct"
  name := Naming.synthetic (service.name ++ "_" ++ f.name ++ "_args")
  fields := f.arguments
  annotations := []
  expandable := some false

/-- The field of the response of a function. -/
def responseDecl (f : FunctionDecl) : FieldDecl where
  id := 0
  name := responseField
  requiredness := .optional
  type := f.result
  initial := none
  annotations := []

/-- The structure of the response and the exceptions of a function, all of them optional. -/
def resultStruct (service : ServiceDecl) (f : FunctionDecl) : StructDecl where
  category := "struct"
  name := Naming.synthetic (service.name ++ "_" ++ f.name ++ "_result")
  fields := (if f.void then [] else [responseDecl f]) ++ f.throws.map FieldDecl.asOptional
  annotations := []
  expandable := some false

/-- The names that every function declares itself, by key. -/
def fixedParams (f : FunctionDecl) : NameTable :=
  ⟨[("$receiver", "p"), ("$ctx", "ctx"), ("$err", "err")] ++
    if f.void then [] else [("$r", "r"), ("$result", "_result")]⟩

/-- The parameter names that fields ask for, each with its source name. -/
def paramCandidates (w : Site) (fields : List FieldDecl) :
    Except BuildError (List (String × String)) :=
  fields.mapM fun f => do
    return (f.name, Naming.parameterName (← identified w.file f.name))

/-- Allocates parameters from their candidates. -/
def allocateParams (key : String → String) (candidates : List (String × String)) :
    Allocate (List NamedParam) :=
  candidates.mapM fun c => do
    return ⟨← allocate c.2 (key c.1), c.1⟩

/-- The key of an exception among the parameters. -/
def throwKey (source : String) : String :=
  Naming.synthetic ("throw:" ++ source)

/-- Names a function that has its own name, and lists its structures. -/
def addFunction (w : Site) (service : ServiceDecl) (f : FunctionDecl) (name : String) :
    Install NamedFunction := do
  let args ← w.addStructure (argsStruct service f) .arguments
  let result ←
    if f.oneway then pure none
    else some <$> w.addStructure (resultStruct service f) .result
  let arguments ← w.paramCandidates f.arguments
  let throws ← w.paramCandidates f.throws
  let (arguments, params) := allocateParams id arguments (fixedParams f)
  let (throws, params) := allocateParams throwKey throws params
  return {
    decl := f
    name := name
    params := params
    argsStruct := args
    resultStruct := result
    argumentNames := arguments
    throwNames := throws }

/-- Names the functions of a service, whose names are a name table of their own. -/
def addFunctions (w : Site) (service : ServiceDecl) :
    NameTable → List FunctionDecl → Install (List NamedFunction)
  | _, [] => return []
  | names, f :: fs => do
    let candidate ← identified w.file f.name
    let (name, names) := names.add candidate f.name
    let first ← w.addFunction service f name
    return first :: (← w.addFunctions service names fs)

/-- Names a service with its functions, its client and its processor. -/
def addService (w : Site) (s : ServiceDecl) : Install Unit := do
  let name ← w.allocateGlobal s.name false
  declare s.name name .service
  let functions ← w.addFunctions s .empty s.functions
  w.reserveGlobal (clientOf name) ("client:" ++ s.name)
  w.reserveGlobal (processorOf name) ("processor:" ++ s.name)
  modify fun r => { r with services := r.services ++ [⟨s, name, functions⟩] }

/-! ## Enums, typedefs and constants -/

/-- Allocates the values of an enum, which are called after it. -/
def allocateValues (o : Options) (enumName : String) (values : List EnumValueDecl) :
    Allocate (List EnumValue) :=
  values.mapM fun v => do
    let name ← allocate (enumName ++ "_" ++ v.name) v.name
    return ⟨v, name, if o.typedEnumText then name else v.name⟩

/-- Names an enum and its values. -/
def addEnum (w : Site) (e : EnumDecl) : Install Unit := do
  let name ← w.allocateGlobal e.name false
  declare e.name name .enum
  let values := (allocateValues w.options name e.values NameTable.empty).1
  modify fun r => { r with enums := r.enums ++ [⟨e, name, values⟩] }

/-- Names a typedef; one of a structure has a constructor. -/
def addTypedef (w : Site) (t : TypedefDecl) : Install Unit := do
  let name ← w.allocateGlobal t.name false
  if t.target.category.isStructLike then w.reserveGlobal (constructorOf name) ("new:" ++ t.name)
  declare t.name name .typedef
  modify fun r => { r with typedefs := r.typedefs ++ [⟨t, name⟩] }

/-- Names a constant. -/
def addConstant (w : Site) (c : ConstantDecl) : Install Unit := do
  let name ← w.allocateGlobal c.name false
  declare c.name name .constant
  modify fun r => { r with constants := r.constants ++ [⟨c, name⟩] }

/-- Names everything that the file declares. -/
def install (w : Site) : Install Unit := do
  let d := w.place.directory.document
  d.services.forM w.addService
  d.structLikes.forM fun s => do
    let _ ← w.addStructure s .declared
  d.enums.forM w.addEnum
  d.typedefs.forM w.addTypedef
  d.constants.forM w.addConstant

/-- The roster of the file. -/
def roster (w : Site) : Except BuildError Roster := do
  let (_, r) ← w.install.run .empty
  return r

end Site

end IdlScope

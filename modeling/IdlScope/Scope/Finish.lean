import IdlScope.Scope.Rendering
import IdlScope.Scope.Roster

/-!
# Finishing — from a roster to a scope

With all names given, the types and values of a file are found and written. All fields are
resolved before the first is rendered; typedefs, constants and functions are resolved one by
one, each seeing the includes that rendering has appended so far.

After the constants, imports that no text mentions are marked unused: an expanded field is
rendered and yet not part of the output. The bases of services and the signatures of
functions come last and mark what they mention used again.
-/

namespace IdlScope

/-- A field with its type and its declared value resolved. -/
structure ResolvedField extends NamedField where
  typeExpr : TypeExpr
  valueExpr : Option ValueExpr

/-- A step of finishing that only renders. -/
abbrev Link := StateM Linkage

/-- A step of finishing that also resolves. -/
abbrev Finish := StateT Linkage (Except ResolveError)

/-- A rendering step as a step of finishing. -/
def rendering {α : Type} (step : Link α) : Finish α := fun linkage => .ok (step.run linkage)

namespace Library

/-- Resolves a field where it was declared; its owner in errors is the structure it is in. -/
def resolveField (l : Library) (own : Place) (structureName : String) (f : NamedField) :
    Except ResolveError ResolvedField := do
  let place := match f.origin with
    | some o => l.placeOf own o.home
    | none => own
  let owner := structureName ++ "." ++ f.decl.name
  let t ← l.resolveType place f.decl.type owner
  let v ← match f.decl.initial with
    | some v => (l.resolveValue place owner v).map some
    | none => .ok none
  return { f with typeExpr := t, valueExpr := v }

end Library

namespace RenderEnv

/-! ## Fields -/

/-- Renders the type and the value of a field. -/
def field (e : RenderEnv) (f : ResolvedField) : Link Field := do
  let plain ← e.type f.typeExpr
  let underlying := f.typeExpr.underlying
  let value ←
    match f.valueExpr with
    | some v => e.value f.typeExpr plain.text v
    | none => pure ⟨e.language.zeroValue underlying plain.text, []⟩
  return { f with
    type := ⟨e.language.fieldType plain.text underlying f.decl.isOptional, plain.qualifiers⟩
    plainType := plain
    value := value
    hasDefault := f.valueExpr.isSome }

/-! ## Typedefs and constants -/

/-- The place of the file being built, with the includes as they are now. -/
def placeNow (own : Place) (linkage : Linkage) : Place :=
  { own with directory := { own.directory with includes := linkage.includes } }

/-- Resolves and renders a typedef. -/
def typedef (e : RenderEnv) (own : Place) (t : NamedTypedef) : Finish Typedef := do
  let place := placeNow own (← get)
  let target ← e.library.resolveType place t.decl.target t.decl.name
  let plain ← rendering (e.type target)
  return { t with type := ⟨e.language.aliasType plain.text, plain.qualifiers⟩ }

/-- Resolves and renders a constant. -/
def constant (e : RenderEnv) (own : Place) (c : NamedConstant) : Finish Constant := do
  let place := placeNow own (← get)
  let t ← e.library.resolveType place c.decl.type c.decl.name
  let v ← e.library.resolveValue place c.decl.name c.decl.value
  let type ← rendering (e.type t)
  let init ← rendering (e.value t type.text v)
  return { c with type := type, init := init }

/-! ## Services -/

/-- Finds the base of a service. -/
def serviceBase (e : RenderEnv) (own : Place) (s : NamedService) : Finish (Option ServiceBase) := do
  match s.decl.base with
  | none => return none
  | some base =>
    let place := placeNow own (← get)
    match e.library.declaration? place base s.decl.baseReference (· == .service) with
    | none => throw (.unresolvedType place.directory.filename s.decl.name base)
    | some (q, found) =>
      let (qualifier, linkage) := e.qualifierOf (← get) q.home
      set linkage
      return some ⟨found.name, qualifier, q.home⟩

/-- Does the response of a function expand in its result structure? -/
def responseExpands (structures : StructureLists Field) (f : NamedFunction) : Bool :=
  f.resultStruct.any fun name =>
    (structures.madeUp.find? (·.name == name)).any fun s =>
      (s.slots.find? (·.field.decl.name == responseField)).any Slot.isExpanded

/-- Resolves the types of parameters. -/
def parameterTypes (e : RenderEnv) (place : Place) (owner : String) (fields : List FieldDecl) :
    Except ResolveError (List TypeExpr) :=
  fields.mapM fun f => e.library.resolveInSignature place f.type (owner ++ "." ++ f.name)

/-- Renders the types of parameters. -/
def params (e : RenderEnv) (names : List NamedParam) (types : List TypeExpr) :
    Link (List Param) :=
  (names.zip types).mapM fun p => do
    return { p.1 with type := ← e.type p.2 }

/-- Resolves the response of a function. One that was expanded keeps the type it declares. -/
def responseType (e : RenderEnv) (place : Place) (structures : StructureLists Field)
    (owner : String) (f : NamedFunction) : Except ResolveError (Option TypeExpr) :=
  if f.decl.void || f.decl.oneway then .ok none
  else if responseExpands structures f then
    (e.library.resolveType place f.decl.result owner).map some
  else (e.library.resolveInSignature place f.decl.result owner).map some

/-- Resolves and renders the signature of a function. -/
def function (e : RenderEnv) (own : Place) (structures : StructureLists Field)
    (serviceName : String) (f : NamedFunction) : Finish Function := do
  let place := placeNow own (← get)
  let owner := serviceName ++ "." ++ f.decl.name
  let arguments ← e.parameterTypes place owner f.decl.arguments
  let response ← e.responseType place structures owner f
  let throws ← e.parameterTypes place owner f.decl.throws
  let arguments ← rendering (e.params f.argumentNames arguments)
  let response ←
    match response with
    | some t => some <$> rendering (e.type t)
    | none => pure none
  let throws ← rendering (e.params f.throwNames throws)
  return { f with arguments := arguments, response := response, throws := throws }

/-- Adds the base of a service to the signatures of its functions. -/
def service (e : RenderEnv) (own : Place) (structures : StructureLists Field)
    (s : NamedService × Option ServiceBase) : Finish Service := do
  let functions ← s.1.namedFunctions.mapM (e.function own structures s.1.decl.name)
  return { s.1 with base := s.2, functions := functions }

end RenderEnv

/-! ## The whole file -/

/-- The aliases that the texts of a field mention. -/
def Field.mentions (f : Field) : List String :=
  f.type.qualifiers ++ f.plainType.qualifiers ++ f.value.qualifiers

/-- The aliases that structures, typedefs and constants mention in the output. -/
def mentionedAliases (structures : StructureLists Field) (typedefs : List Typedef)
    (constants : List Constant) : List String :=
  structures.all.flatMap (fun s => s.flattenedFields.flatMap Field.mentions) ++
    typedefs.flatMap (·.type.qualifiers) ++
    constants.flatMap fun c => c.type.qualifiers ++ c.init.qualifiers

/-- What a look-up may ask of a file with a roster. -/
def Roster.directory (r : Roster) (d : Document) (includes : List (Option Include)) :
    Directory :=
  ⟨d, includes, r.declared, r.enums⟩

/-- The parts of a scope that finishing adds to a roster. -/
structure Finished where
  structures : StructureLists Field
  typedefs : List Typedef
  constants : List Constant
  services : List Service

/-- Finishes a roster, given its fields resolved. -/
def Roster.finish (r : Roster) (e : RenderEnv) (own : Place)
    (resolved : StructureLists ResolvedField) : Finish Finished := do
  let structures ← rendering (resolved.mapM fun _ => e.field)
  let typedefs ← r.typedefs.mapM (e.typedef own)
  let constants ← r.constants.mapM (e.constant own)
  modify (·.prune (mentionedAliases structures typedefs constants))
  let bases ← r.services.mapM (e.serviceBase own)
  let services ← (r.services.zip bases).mapM (e.service own structures)
  return ⟨structures, typedefs, constants, services⟩

/-- The scope of a document that has its roster and the linkage of its includes. -/
def Roster.scope (r : Roster) (language : Language) (library : Library) (d : Document)
    (linkage : Linkage) : Except ResolveError Scope := do
  let own : Place := ⟨.here, r.directory d linkage.includes⟩
  let resolved ← r.structures.mapM (library.resolveField own)
  let (done, linkage) ← (r.finish ⟨language, library⟩ own resolved).run linkage
  return {
    document := d
    linkage := linkage
    globals := r.globals
    declared := r.declared
    structures := done.structures
    enums := r.enums
    typedefs := done.typedefs
    constants := done.constants
    services := done.services
    expansions := r.expansions
    diagnostics := r.diagnostics }

end IdlScope

import IdlScope.Scope.Lookup

/-!
# Resolution — types and values with every name found

A type expression is a type in which each name has become a declaration: its home, the name
allocated there and its category behind all typedefs. A value expression is the same for
values. Resolving only reads; it depends on nothing but the library and the place that the
type or value is written at.

The signature of a function finds its types in another way than a field does: a qualified
name is first looked for, without its qualifier, in the files that the place includes
directly.
-/

namespace IdlScope

/-- A type in which every name has been found. -/
inductive TypeExpr where
  | base (category : Category)
  | list (item : TypeExpr)
  | set (item : TypeExpr)
  | map (key value : TypeExpr)
  | declared (home : Home) (name : String) (underlying : Category)
  deriving DecidableEq

namespace TypeExpr

/-- The category behind all typedefs. -/
def underlying : TypeExpr → Category
  | .base c => c
  | .list _ => .list
  | .set _ => .set
  | .map _ _ => .map
  | .declared _ _ c => c

/-- The type of the elements of a list or set; that of texts for any other type. -/
def item : TypeExpr → TypeExpr
  | .list t => t
  | .set t => t
  | _ => .base .string

/-- The types of the keys and values of a map; that of texts for any other type. -/
def keyAndValue : TypeExpr → TypeExpr × TypeExpr
  | .map k v => (k, v)
  | _ => (.base .string, .base .string)

end TypeExpr

/-- The located declaration as a type. -/
def Located.toType (d : Located) : TypeExpr :=
  .declared d.home d.name d.underlying

/-- A value in which every name has been found. -/
inductive ValueExpr where
  | int (value : Int)
  | double (value : Float)
  | literal (value : String)
  | bool (value : Bool)
  | enumValue (home : Home) (enumName valueName : String)
  | constant (home : Home) (name : String)
  | list (items : List ValueExpr)
  | map (entries : List (ValueExpr × ValueExpr))

/-! ## Types -/

mutual

/-- Resolves a type, given how a named type is found. -/
def resolveWith (file owner : String) (find : IdlType → Except ResolveError TypeExpr) :
    IdlType → Except ResolveError TypeExpr
  | ⟨name, category, key, value, reference, annotations⟩ =>
    match category with
    | .list => do return .list (← resolveElement file owner find name value)
    | .set => do return .set (← resolveElement file owner find name value)
    | .map => do
      let k ← resolveElement file owner find name key
      let v ← resolveElement file owner find name value
      return .map k v
    | .enum | .struct | .union | .exception | .typedef | .service =>
      find ⟨name, category, key, value, reference, annotations⟩
    | _ => .ok (.base category)
termination_by structural t => t

/-- Resolves an element type of a container with the given name. -/
def resolveElement (file owner : String) (find : IdlType → Except ResolveError TypeExpr)
    (container : String) : Option IdlType → Except ResolveError TypeExpr
  | none => .error (.malformedType file owner container)
  | some t => resolveWith file owner find t
termination_by structural t => t

end

namespace Library

/-- A type as a field has it: names are found as they are written. -/
def resolveType (l : Library) (p : Place) (t : IdlType) (owner : String) :
    Except ResolveError TypeExpr :=
  resolveWith p.directory.filename owner
    (fun t => (l.locate p t owner).map Located.toType) t

/-- A qualified type, found by its bare name in the first direct include that declares it. -/
def unqualified? (l : Library) (p : Place) (t : IdlType) (owner : String) : Option TypeExpr :=
  match t.splitName with
  | (none, _) => none
  | (some _, bare) =>
    p.directory.present.findSome? fun i => do
      let q ← l.place? i.file
      let _ ← q.directory.declared.get? bare
      (l.locate q (.named bare t.category) owner).toOption.map Located.toType

/-- A type as a signature has it. -/
def resolveInSignature (l : Library) (p : Place) (t : IdlType) (owner : String) :
    Except ResolveError TypeExpr :=
  resolveWith p.directory.filename owner
    (fun t =>
      match l.unqualified? p t owner with
      | some found => .ok found
      | none => (l.locate p t owner).map Located.toType) t

/-! ## Values -/

/-- The value of an enum that an identifier names: the enum, then the value. -/
def enumValue? (l : Library) (p : Place) (identifier : String) : Option ValueExpr :=
  match splitQualified identifier with
  | (none, _) => none
  | (some enumName, member) => do
    let (q, found) ← l.declaration? p enumName none (· == .enum)
    let e ← q.directory.enum? (splitQualified enumName).2
    let v ← e.value? member
    return .enumValue q.home found.name v.name

/-- The value of an identifier: a truth value, a constant or the value of an enum. -/
def resolveIdentifier (l : Library) (p : Place) (identifier owner : String) :
    Except ResolveError ValueExpr :=
  if identifier = "true" then .ok (.bool true)
  else if identifier = "false" then .ok (.bool false)
  else
    match l.declaration? p identifier none (· == .constant) with
    | some (q, found) => .ok (.constant q.home found.name)
    | none =>
      match l.enumValue? p identifier with
      | some v => .ok v
      | none => .error (.unresolvedValue p.directory.filename owner identifier)

mutual

/-- Resolves a value; every identifier in it has to mean something. -/
def resolveValue (l : Library) (p : Place) (owner : String) :
    ConstValue → Except ResolveError ValueExpr
  | .int v => .ok (.int v)
  | .double v => .ok (.double v)
  | .literal s => .ok (.literal s)
  | .identifier s => l.resolveIdentifier p s owner
  | .list items => (resolveValues l p owner items).map .list
  | .map entries => (resolveEntries l p owner entries).map .map
termination_by structural v => v

/-- Resolves the items of a list in order. -/
def resolveValues (l : Library) (p : Place) (owner : String) :
    List ConstValue → Except ResolveError (List ValueExpr)
  | [] => .ok []
  | v :: vs => do
    let e ← resolveValue l p owner v
    return e :: (← resolveValues l p owner vs)
termination_by structural vs => vs

/-- Resolves the entries of a map in order. -/
def resolveEntries (l : Library) (p : Place) (owner : String) :
    List (ConstValue × ConstValue) → Except ResolveError (List (ValueExpr × ValueExpr))
  | [] => .ok []
  | e :: es => do
    let e ← resolveEntry l p owner e
    return e :: (← resolveEntries l p owner es)
termination_by structural es => es

/-- Resolves an entry of a map, its key first. -/
def resolveEntry (l : Library) (p : Place) (owner : String) :
    ConstValue × ConstValue → Except ResolveError (ValueExpr × ValueExpr)
  | (k, v) => do
    let key ← resolveValue l p owner k
    return (key, ← resolveValue l p owner v)
termination_by structural e => e

end

end Library

end IdlScope

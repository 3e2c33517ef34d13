import IdlScope.Scope.Error
import IdlScope.Scope.Place

/-!
# Look-ups — the declaration that a name means

Every look-up is a search path, a list of places each with the key to ask there, and the
first place that has an answer decides. A name that comes with a reference asks the include
that the reference counts first. Without one, a bare name asks its own file and then every
file that can be seen, and a qualified name asks the files that the qualifier means; a file
may qualify its own names by its own stem, if no other file has an answer.
-/

namespace IdlScope

/-- A question to a place. -/
structure Probe where
  place : Place
  key : String

namespace Probe

/-- The first probe with an answer, and the answer. -/
def first? {α : Type} (ask : Directory → String → Option α) : List Probe → Option (Place × α)
  | [] => none
  | p :: ps =>
    match ask p.place.directory p.key with
    | some a => some (p.place, a)
    | none => first? ask ps

end Probe

namespace Library

/-! ## Search paths -/

/-- The places for a name without a reference. -/
def pathOf (l : Library) (p : Place) (qualifier : Option String) (bare : String) : List Probe :=
  match qualifier with
  | none => ⟨p, bare⟩ :: (l.reach p).map fun r => ⟨r.place, bare⟩
  | some q =>
    ((l.reachAs p q).map fun r => ⟨r.place, bare⟩) ++
      if q = p.directory.document.stem then [⟨p, bare⟩] else []

/-- The key that a reference asks for. -/
def referenceKey (r : Reference) (bare : String) : String :=
  if r.name = "" then bare else r.name

/-- The place that a reference counts. -/
def referred? (l : Library) (p : Place) (r : Reference) : Option Place :=
  (p.directory.includeAt? r.index).bind fun i => l.place? i.file

/-- The places for a declaration: the one a reference counts, then the path of the name. -/
def declarationPath (l : Library) (p : Place) (name : String) (reference : Option Reference) :
    List Probe :=
  let (qualifier, bare) := splitQualified name
  let referred : Option Probe := do
    let r ← reference
    return ⟨← l.referred? p r, referenceKey r bare⟩
  referred.toList ++ l.pathOf p qualifier bare

/-- The places for the structure that a type refers to. With a reference, the include that
it counts is asked for both keys, then every file that can be seen, and the own file last,
whatever the qualifier. -/
def structurePath (l : Library) (p : Place) (t : IdlType) : List Probe :=
  let (qualifier, bare) := t.splitName
  match t.reference with
  | none => l.pathOf p qualifier bare
  | some r =>
    (match l.referred? p r with
      | some q => [⟨q, referenceKey r bare⟩, ⟨q, bare⟩]
      | none => []) ++
    ((l.reach p).map fun r => ⟨r.place, bare⟩) ++ [⟨p, bare⟩]

/-! ## What is found -/

/-- The structure that a type refers to, and the place that declares it. -/
def structureOf? (l : Library) (p : Place) (t : IdlType) : Option (Place × StructDecl) :=
  Probe.first? Directory.struct? (l.structurePath p t)

/-- The declaration of a name among the kinds that are wanted, and its place. -/
def declaration? (l : Library) (p : Place) (name : String) (reference : Option Reference)
    (accept : DeclKind → Bool) : Option (Place × Declared) :=
  Probe.first? (Directory.declared? · accept ·) (l.declarationPath p name reference)

end Library

/-- Does the kind declare a type? -/
def DeclKind.isType : DeclKind → Bool
  | .structLike _ | .enum | .typedef => true
  | .constant | .service => false

/-! ## Types by name -/

/-- The declaration of a named type. -/
structure Located where
  home : Home
  /-- The name that the declaring file allocated. -/
  name : String
  kind : DeclKind
  /-- The category behind all typedefs. -/
  underlying : Category
  deriving DecidableEq

namespace Library

/-- The number of typedefs that a type may go through. -/
def maxTypedefs : Nat := 33

/-- The category behind a typedef of a place, after at most `n` typedefs. -/
def behindTypedef (l : Library) : Nat → Place → String → Option Category
  | 0, _, _ => none
  | n + 1, p, name => do
    let t ← p.directory.typedef? name
    let target := t.target
    if target.category.isBase || target.category.isContainer then return target.category
    let (next, found) ← l.declaration? p target.name target.reference DeclKind.isType
    match found.kind with
    | .structLike kind => return kind.category
    | .enum => return .enum
    | _ => l.behindTypedef n next target.bareName

/-- The category behind a declaration that the type `t` led to. -/
def underlying? (l : Library) (p : Place) (t : IdlType) (found : Declared) : Option Category :=
  match found.kind with
  | .structLike kind => some kind.category
  | .enum => some .enum
  | _ =>
    l.behindTypedef maxTypedefs p
      (match t.reference with
        | some r => referenceKey r t.bareName
        | none => t.bareName)

/-- The declaration of a named type that a place mentions; `owner` is told in errors. -/
def locate (l : Library) (p : Place) (t : IdlType) (owner : String) :
    Except ResolveError Located :=
  let located : Option Located := do
    let (q, found) ← l.declaration? p t.name t.reference DeclKind.isType
    return ⟨q.home, found.name, found.kind, ← l.underlying? q t found⟩
  match located with
  | some found => .ok found
  | none => .error (.unresolvedType p.directory.filename owner t.name)

end Library

end IdlScope

import IdlScope.Scope.Basic

/-!
# Places — where a name is looked up

A place is a file as the file being built sees it, cut down to what a look-up may ask: what
the file says, what it includes, and what its names declare. The file being built is a place
before it has a scope, so look-ups run the same while a scope is built and afterwards.

The files that a place can see are the ones it includes, directly or through others. They
are listed by distance: layer after layer, and inside a layer in the order of the include
lists that lead to it, each file once and the place's own file never.
-/

namespace IdlScope

/-- What a look-up may ask of a file. -/
structure Directory where
  document : Document
  includes : List (Option Include)
  declared : Table Declared
  enums : List Enum

namespace Directory

/-- The name of the file. -/
def filename (d : Directory) : String := d.document.filename

/-- The includes that are there. -/
def present (d : Directory) : List Include :=
  d.includes.filterMap id

/-- The include at a position, if the position exists and the include is used. -/
def includeAt? (d : Directory) (index : Int) : Option Include :=
  if index < 0 then none else (d.includes[index.toNat]?).join

/-- The first struct, union or exception with a name. -/
def struct? (d : Directory) (name : String) : Option StructDecl :=
  d.document.structLikes.find? (·.name == name)

/-- The first typedef with a name. -/
def typedef? (d : Directory) (name : String) : Option TypedefDecl :=
  d.document.typedefs.find? (·.name == name)

/-- The first enum with a name. -/
def enum? (d : Directory) (name : String) : Option Enum :=
  d.enums.find? (·.decl.name == name)

/-- The declaration of a name, if its kind is wanted. -/
def declared? (d : Directory) (accept : DeclKind → Bool) (name : String) : Option Declared :=
  (d.declared.get? name).filter (accept ·.kind)

end Directory

/-- What a look-up may ask of a finished scope. -/
def Scope.directory (s : Scope) : Directory :=
  ⟨s.document, s.linkage.includes, s.declared, s.enums⟩

/-- A file as seen from the file being built. -/
structure Place where
  home : Home
  directory : Directory

/-- A place reached through an include. -/
structure Reached where
  link : Include
  place : Place

namespace Library

/-- The place of a file that has a scope. -/
def place? (l : Library) (file : String) : Option Place :=
  (l.scope? file).map fun s => ⟨.foreign file, s.directory⟩

/-- What an include leads to. -/
def follow? (l : Library) (i : Include) : Option Reached :=
  (l.place? i.file).map (⟨i, ·⟩)

/-- The place of a home, seen from the file being built. -/
def placeOf (l : Library) (own : Place) : Home → Place
  | .here => own
  | .foreign file => (l.place? file).getD own

/-! ## The files a place can see -/

/-- The includes of files that are not known yet, each file once. -/
def unseen (seen : List String) : List Include → List Include
  | [] => []
  | i :: is => if seen.contains i.file then unseen seen is else i :: unseen (i.file :: seen) is

/-- The layers of includes from `layer` on, at most `n` of them. -/
def layers (l : Library) : Nat → List String → List Include → List Reached
  | 0, _, _ => []
  | n + 1, seen, layer =>
    let links := unseen seen layer
    let reached := links.filterMap l.follow?
    reached ++ layers l n (links.map Include.file ++ seen)
      (reached.flatMap (·.place.directory.present))

/-- Every file that a place can see, by distance. Each layer but the last leads to a file
of the library that no layer before it did, so the number of scopes bounds their number. -/
def reach (l : Library) (p : Place) : List Reached :=
  layers l l.scopes.length [p.directory.filename] p.directory.present

/-- The files that a place can see through an include which answers to a qualifier. -/
def reachAs (l : Library) (p : Place) (qualifier : String) : List Reached :=
  (l.reach p).filter (·.link.answersTo qualifier)

end Library

end IdlScope

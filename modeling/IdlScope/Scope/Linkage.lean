import IdlScope.ImportTable
import IdlScope.Target.Package

/-!
# Linkage — the other files that a file refers to

A file refers to other files through its includes. The includes keep the places that they
have in the source, because references count them; an include that the source never uses is
an empty place. Files that turn out to be needed while types are written are appended.

An include leads to a file by its name, under the alias that the file is imported by. Files
of one output package do not import each other.
-/

namespace IdlScope

/-- The file that a declaration is in, as seen from the file being built. -/
inductive Home where
  /-- The file being built. -/
  | here
  /-- Another file, built before. -/
  | foreign (file : String)
  deriving DecidableEq

/-- An include as the including file sees it. -/
structure Include where
  /-- The name of the included file. -/
  file : String
  /-- The import alias, or the package's own alias if both files share a package. -/
  packageName : String
  /-- The import path as it is written in the including file. -/
  path : String
  /-- The stem of the included file, by which sources qualify its names. -/
  stem : String
  /-- The namespace of the included file. -/
  domain : String
  /-- Do both files land in one package? -/
  samePackage : Bool
  deriving DecidableEq

/-- Does a qualifier in a source refer to the include? -/
def Include.answersTo (i : Include) (qualifier : String) : Bool :=
  i.stem == qualifier || i.packageName == qualifier || i.domain == qualifier

/-- The package of a file, its includes and its imports. -/
structure Linkage where
  package : Package
  includes : List (Option Include)
  imports : ImportTable
  deriving DecidableEq

namespace Linkage

/-- The linkage of a file that refers to nothing yet. -/
def new (package : Package) : Linkage := ⟨package, [], .empty⟩

/-- The includes that are there. -/
def present (l : Linkage) : List Include :=
  l.includes.filterMap id

/-- Appends the place of an include that the source never uses. -/
def skip (l : Linkage) : Linkage :=
  { l with includes := l.includes ++ [none] }

/-- Appends an include of a file of the given package, registering its import; its alias. -/
def append (l : Linkage) (language : Language) (d : Document) (package : Package) :
    String × Linkage :=
  let path := language.importPath l.package package
  if package.path = l.package.path then
    let i := ⟨d.filename, package.preferredAlias, path, d.stem, package.domain, true⟩
    (i.packageName, { l with includes := l.includes ++ [some i] })
  else
    let (name, imports) := l.imports.add package.preferredAlias path
    let i := ⟨d.filename, name, path, d.stem, package.domain, false⟩
    (name, { l with includes := l.includes ++ [some i], imports := imports })

/-- The qualifier of names from a file of the given package: none within one package, else
the alias of its import, which is marked used. A file that is not imported is appended. -/
def qualifierFor (l : Linkage) (language : Language) (d : Document) (package : Package) :
    Option String × Linkage :=
  if package.path = l.package.path then (none, l)
  else
    let path := language.importPath l.package package
    match l.imports.alias? path with
    | some name => (some name, { l with imports := l.imports.markUsed path })
    | none =>
      let (name, l) := l.append language d package
      (some name, l)

/-- Is the import of an include used? A file of the same package needs none. -/
def isUsed (l : Linkage) (i : Include) : Bool :=
  i.samePackage || l.imports.isUsed i.path

/-- Marks the imports of includes unused that no text mentions. -/
def prune (l : Linkage) (mentioned : List String) : Linkage :=
  let stale := l.present.filter fun i => !i.samePackage && !mentioned.contains i.packageName
  { l with imports := stale.foldl (fun t i => t.markUnused i.path) l.imports }

end Linkage

end IdlScope

import IdlScope.Idl.Tree
import IdlScope.Options
import IdlScope.Unicode.CaseMap
import IdlScope.Unicode.LetterClass

/-!
# Packages — where the output of a file lands

A file is written into the package that its namespace names, or, without one, into a package
named after the file. A package is imported by its path, under an alias made from the last
segment of its namespace.

Paths between packages are absolute, with one exception: without a path prefix, a module
path is written relative to the importing package.
-/

namespace IdlScope

/-- The output package of a file. -/
structure Package where
  /-- The declared namespace, or the stem of the file name. -/
  domain : String
  /-- The import path from the root of the output. -/
  path : String
  /-- The alias that importing files prefer. -/
  preferredAlias : String
  deriving DecidableEq

/-! ## Aliases -/

/-- The last segment of a namespace, each character that no identifier may hold replaced. -/
def aliasChars (domain : String) : List Char :=
  (Text.splitLast '.' domain).2.toList.map fun c =>
    if Unicode.isAlphanumeric c || c == '_' then c else '_'

/-- The alias that a namespace leads to. -/
def aliasOf (domain : String) : String :=
  match aliasChars domain with
  | [] => "_"
  | cs => Unicode.lowercase (String.ofList cs)

/-! ## The package of a file -/

/-- A path below a prefix; without a prefix, the path itself. -/
def joinPath (head path : String) : String :=
  if head = "" then path else head ++ "/" ++ path

/-- The path of a namespace, one component for each segment. -/
def domainPath (domain : String) : String :=
  Text.substitute '.' '/' domain

/-- The package of a file under a path prefix. -/
def Language.package (l : Language) (d : Document) (head : String) : Package :=
  match l with
  | .go =>
    let domain := (d.namespaceFor? "go").getD d.stem
    ⟨domain, joinPath head (domainPath domain), aliasOf domain⟩
  | .typescript =>
    let domain := ((d.namespaceFor? "ts").or (d.namespaceFor? "typescript")).getD d.stem
    let path := if head = "" then "./" ++ domainPath domain else joinPath head (domainPath domain)
    ⟨domain, path, aliasOf domain⟩
  | .openApi => ⟨d.stem, d.stem ++ ".yaml", d.stem⟩

/-! ## Paths between packages -/

/-- The way from the module of one namespace to the module of another: up one component and
down one between neighbours below a common parent, otherwise up to the root first. -/
def relativePath (source target : String) : String :=
  let goal := Text.split '.' target
  if source = "" then "./" ++ "/".intercalate goal
  else
    let here := Text.split '.' source
    if here.dropLast ≠ [] ∧ here.dropLast = goal.dropLast then "../" ++ goal.getLast?.getD ""
    else "/".intercalate (here.map (fun _ => "..") ++ goal)

/-- The import path of a package as it is written in a file of another. -/
def Language.importPath (l : Language) (source target : Package) : String :=
  match l with
  | .typescript =>
    if Text.startsWith "./" target.path then relativePath source.domain target.domain
    else target.path
  | .go | .openApi => target.path

end IdlScope

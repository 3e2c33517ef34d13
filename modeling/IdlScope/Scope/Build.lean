import IdlScope.Scope.Finish

/-!
# Builds — the scopes of a tree of files

A file is built after everything it includes, and once: a file whose scope is in the library
is taken from there. A file that is met again while it is being built includes itself, and
nothing on such a circle gets a scope. What was finished before an error stays in the
library; a file that fails never enters it.
-/

namespace IdlScope

/-- A step of a build. The library survives an error. -/
abbrev Build := ExceptT BuildError (StateM Library)

/-! ## The grammar of boolean annotations -/

/-- Is the value a truth value in any case? -/
def isTruthValue (value : String) : Bool :=
  Text.eqIgnoringCase value "true" || Text.eqIgnoringCase value "false"

/-- The first boolean annotation with a value that is no truth value. -/
def badFlag? (file owner : String) (as : Annotations) (keys : List String) : Option BuildError :=
  keys.findSome? fun key =>
    (((as.values? key).getD []).find? (!isTruthValue ·)).map (.malformedFlag file owner key)

/-- The first boolean annotation with such a value in a structure. -/
def StructDecl.badFlag? (file : String) (s : StructDecl) : Option BuildError :=
  (IdlScope.badFlag? file s.name s.annotations [expandableKey, aliasKey]).or
    (s.fields.findSome? fun f =>
      IdlScope.badFlag? file (s.name ++ "." ++ f.name) f.annotations [expandKey, nestedKey])

/-- The first boolean annotation with such a value in the structures of a file. -/
def Document.badFlag? (d : Document) : Option BuildError :=
  d.structLikes.findSome? (StructDecl.badFlag? d.filename)

/-! ## One file -/

/-- The scope of a document whose includes are linked. -/
def Document.scope (d : Document) (o : Options) (library : Library) (linkage : Linkage) :
    Except BuildError Scope := do
  let place : Place := ⟨.here, ⟨d, linkage.includes, .empty, []⟩⟩
  let roster ← Site.roster ⟨o, library, place⟩
  (roster.scope o.language library d linkage).mapError .resolve

/-- Refuses bad annotations where the options ask for it. -/
def Document.check (d : Document) (o : Options) : Except BuildError Unit :=
  match if o.checkAnnotations then d.badFlag? else none with
  | some e => .error e
  | none => .ok ()

/-! ## Trees -/

mutual

/-- Builds a file below the files that wait for it. -/
def buildTree (o : Options) (waiting : List String) : Tree → Build Scope
  | ⟨d, includes⟩ => do
    let library ← get
    match library.scope? d.filename with
    | some s => return s
    | none =>
      if d.filename ∈ waiting then throw (.circularInclude (waiting ++ [d.filename]))
      set (library.meet d.filename)
      d.check o
      let package := o.language.package d o.packagePrefix
      let linkage ← buildIncludes o d (waiting ++ [d.filename]) includes (.new package)
      let library ← get
      let s ← d.scope o library linkage
      set (library.add s)
      return s
termination_by structural t => t

/-- Builds the includes of a document and links them in order. -/
def buildIncludes (o : Options) (d : Document) (waiting : List String) :
    List (Included Tree) → Linkage → Build Linkage
  | [], linkage => return linkage
  | i :: is, linkage => do
    let linkage ← buildInclude o d waiting i linkage
    buildIncludes o d waiting is linkage
termination_by structural is => is

/-- Builds an include of a document and links it, or leaves its place empty. -/
def buildInclude (o : Options) (d : Document) (waiting : List String) :
    Included Tree → Linkage → Build Linkage
  | ⟨path, used, tree⟩, linkage =>
    if used then do
      let s ← ExceptT.adapt (BuildError.through d.filename path) (buildTree o waiting tree)
      return (linkage.append o.language s.document s.package).2
    else return linkage.skip
termination_by structural i => i

end

/-- Builds a tree on top of a library: its scope, and the library afterwards. -/
def Library.build (library : Library) (o : Options) (t : Tree) :
    Except BuildError Scope × Library :=
  (buildTree o [] t).run.run library

end IdlScope

import IdlScope.Scope.Basic

/-!
# The cache — finished scopes under the numbers of their files

A run gives a file its number when the number is first asked for, and keeps the scope of the
file under it once the scope is finished. The numbers by name, the scopes by number and the
next free number are kept apart, and every operation updates them one by one.

A finished scope is shared by all that refer to it: where a file includes another one, its
scope holds the very scope that the build of the other file handed out.
-/

namespace IdlScope

/-- The number of a file. -/
structure FileId where
  index : Nat
  deriving DecidableEq

/-! ## Shared scopes -/

/-- A finished scope as it is handed out: the number of its file, the scope, and what each of
the includes that are there leads to, in their order. -/
inductive SharedScope where
  | mk (file : FileId) (scope : Scope) (holds : List SharedScope)

namespace SharedScope

/-- The number of the file. -/
def file : SharedScope → FileId
  | mk file _ _ => file

/-- The scope. -/
def scope : SharedScope → Scope
  | mk _ scope _ => scope

/-- What the includes of the scope lead to. -/
def holds : SharedScope → List SharedScope
  | mk _ _ holds => holds

/-- The name of the file. -/
def filename (s : SharedScope) : String := s.scope.filename

mutual

/-- The shared scope itself and everything that it holds, directly or through others. -/
def all : SharedScope → List SharedScope
  | mk file scope holds => mk file scope holds :: allOf holds
termination_by structural s => s

/-- The given shared scopes and everything that they hold. -/
def allOf : List SharedScope → List SharedScope
  | [] => []
  | s :: ss => s.all ++ allOf ss
termination_by structural ss => ss

end

mutual

/-- The same under other numbers. -/
def renumber (ρ : FileId → FileId) : SharedScope → SharedScope
  | mk file scope holds => mk (ρ file) scope (renumberAll ρ holds)
termination_by structural s => s

/-- The same shared scopes under other numbers. -/
def renumberAll (ρ : FileId → FileId) : List SharedScope → List SharedScope
  | [] => []
  | s :: ss => s.renumber ρ :: renumberAll ρ ss
termination_by structural ss => ss

end

/-- The shared scope of a file among the given ones and what they hold. -/
def find? (ss : List SharedScope) (file : String) : Option SharedScope :=
  (allOf ss).find? (·.filename == file)

/-- What look-ups may ask while a file is built that holds the given shared scopes. -/
def library (ss : List SharedScope) : Library :=
  ⟨[], (allOf ss).map scope⟩

/-- Shares a finished scope. Its first includes lead to the given shared scopes; the ones that
were appended while it was finished lead to files that these can see. -/
def share (file : FileId) (s : Scope) (linked : List SharedScope) : SharedScope :=
  mk file s
    (linked ++ (s.linkage.present.drop linked.length).filterMap fun i => find? linked i.file)

end SharedScope

/-! ## The cache -/

/-- The numbers of the files that were asked for, and the scopes that are finished. -/
structure Cache where
  /-- The number of each file, in the order in which the numbers were given. -/
  paths : Table FileId
  /-- The finished scope of a file under its number, in the order in which they were stored. -/
  scopes : List (FileId × SharedScope)
  /-- The number of the next file that has none. -/
  nextId : Nat

namespace Cache

/-- No file yet. -/
def empty : Cache := ⟨.empty, [], 0⟩

/-- The number of a file, which is given to it now if it has none. -/
def fileId (c : Cache) (path : String) : FileId × Cache :=
  match c.paths.get? path with
  | some id => (id, c)
  | none => (⟨c.nextId⟩, { c with
      paths := c.paths.set path ⟨c.nextId⟩
      nextId := c.nextId + 1 })

/-- The finished scope of a file. -/
def get? (c : Cache) (path : String) : Option SharedScope :=
  (c.paths.get? path).bind (c.scopes.lookup ·)

/-- Stores a finished scope. One that is there already wins, and is handed out instead. -/
def insert (c : Cache) (s : SharedScope) : SharedScope × Cache :=
  match c.scopes.lookup s.file with
  | some existing => (existing, c)
  | none => (s, { c with scopes := c.scopes ++ [(s.file, s)] })

/-- The names of the files that have a number, in the order in which the numbers were given. -/
def files (c : Cache) : List String :=
  c.paths.entries.map Prod.fst

/-- The finished scopes, in the order in which they were stored. -/
def stored (c : Cache) : List SharedScope :=
  c.scopes.map Prod.snd

/-- The library of the scopes in the cache. -/
def library (c : Cache) : Library :=
  ⟨c.files, c.stored.map SharedScope.scope⟩

end Cache

end IdlScope

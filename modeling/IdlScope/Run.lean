import IdlScope.Pool.Buffers
import IdlScope.Scope.Build

/-!
# Runs — many files in one go

A run keeps the library of scopes and the pool of buffers from one request to the next.
Every root file is a unit of its own: one that fails tells its error and leaves the others
alone. Output is rendered into buffers of the pool, one file at a time.
-/

namespace IdlScope

/-- Writes a scope into a buffer: whether it went well, and the buffer afterwards. -/
abbrev Renderer := Scope → String → Bool × String

/-- Why a file has no output. -/
inductive GenerateError where
  | build (error : BuildError)
  /-- The renderer gave up. -/
  | render (file : String)

namespace GenerateError

/-- What is said about the error. -/
def message : GenerateError → String
  | .build error => error.message
  | .render file => file ++ ": renderer failed"

end GenerateError

/-- A run in progress. -/
structure Run where
  options : Options
  library : Library
  pool : BufferPool

namespace Run

/-- A run that has built nothing. -/
def new (o : Options) : Run := ⟨o, .empty, .new BufferPool.defaultMaxIdle⟩

/-- Builds one root file. -/
def build (r : Run) (t : Tree) : Except BuildError Scope × Run :=
  let (result, library) := r.library.build r.options t
  (result, { r with library := library })

/-- Builds root files in order; each result with the name of its file. -/
def buildAll (r : Run) : List Tree → List (String × Except BuildError Scope) × Run
  | [] => ([], r)
  | t :: ts =>
    let (result, r) := r.build t
    let (results, r) := r.buildAll ts
    ((t.filename, result) :: results, r)

/-- Renders a scope into a buffer of the pool, which gets the buffer back. -/
def render (r : Run) (write : Renderer) (s : Scope) : Except GenerateError String × Run :=
  let (buffer, pool) := r.pool.checkout
  let (done, buffer) := write s buffer
  (if done then .ok buffer else .error (.render s.filename),
    { r with pool := pool.giveBack buffer })

/-- Renders what was built; a file without a scope keeps its error. -/
def renderAll (r : Run) (write : Renderer) :
    List (String × Except BuildError Scope) → List (String × Except GenerateError String) × Run
  | [] => ([], r)
  | (file, .error e) :: rest =>
    let (outputs, r) := r.renderAll write rest
    ((file, .error (.build e)) :: outputs, r)
  | (file, .ok s) :: rest =>
    let (output, r) := r.render write s
    let (outputs, r) := r.renderAll write rest
    ((file, output) :: outputs, r)

/-- Builds root files, then renders the ones that have a scope. -/
def generate (r : Run) (write : Renderer) (ts : List Tree) :
    List (String × Except GenerateError String) × Run :=
  let (results, r) := r.buildAll ts
  r.renderAll write results

/-- A one-line description. -/
def summary (r : Run) : String :=
  "Compiler \x7b language: " ++ r.options.language.title ++
    ", scopes: " ++ toString r.library.scopes.length ++
    ", pool: " ++ r.pool.summary ++ " \x7d"

end Run

end IdlScope

import IdlScope.Run

/-!
# Render jobs — outputs written side by side

What a run has built is rendered one result at a time, or, if the options ask for it, side by side.
A job takes a buffer from the pool for a file that has a scope, writes into it, and gives it back
when the output is there; a file without a scope keeps its error and needs no buffer. Between two
steps of one job others may take theirs.
-/

namespace IdlScope

/-- The rendering of one result. -/
inductive RenderJob where
  /-- It has not begun. -/
  | waiting (file : String) (result : Except BuildError Scope)
  /-- It has a buffer at hand. -/
  | writing (file : String) (s : Scope) (buffer : String)
  | done (file : String) (output : Except GenerateError String)

namespace RenderJob

/-- Has the job come to its end? -/
def isDone : RenderJob → Bool
  | done _ _ => true
  | _ => false

/-- A step of a job, and the pool afterwards. -/
inductive Step (write : Renderer) : RenderJob → BufferPool → RenderJob → BufferPool → Prop
  | keep (file : String) (e : BuildError) (pool : BufferPool) :
    Step write (.waiting file (.error e)) pool (.done file (.error (.build e))) pool
  | checkout (file : String) (s : Scope) (pool : BufferPool) :
    Step write (.waiting file (.ok s)) pool (.writing file s pool.checkout.1) pool.checkout.2
  | giveBack (file : String) (s : Scope) (buffer : String) (pool : BufferPool) :
    Step write (.writing file s buffer) pool
      (.done file
        (if (write s buffer).1 then .ok (write s buffer).2 else .error (.render s.filename)))
      (pool.giveBack (write s buffer).2)

end RenderJob

/-- Render jobs and the pool that they share. -/
structure Rendering where
  pool : BufferPool
  jobs : List RenderJob

namespace Rendering

/-- The jobs for results with the names of their files, none of them begun. -/
def start (pool : BufferPool) (results : List (String × Except BuildError Scope)) : Rendering :=
  ⟨pool, results.map fun p => .waiting p.1 p.2⟩

/-- A step of one of the jobs: of any of them if the options ask for that, else of the first that is
not done. -/
inductive Step (o : Options) (write : Renderer) : Rendering → Rendering → Prop
  | mk {before after : List RenderJob} {job job' : RenderJob} {pool pool' : BufferPool}
    (turn : o.parallel = true ∨ ∀ j ∈ before, j.isDone = true)
    (step : job.Step write pool job' pool') :
    Step o write ⟨pool, before ++ job :: after⟩ ⟨pool', before ++ job' :: after⟩

/-- Steps one after the other. -/
inductive Runs (o : Options) (write : Renderer) (g : Rendering) : Rendering → Prop
  | same : Runs o write g g
  | step {m n : Rendering} (h : Runs o write g m) (hs : Step o write m n) : Runs o write g n

end Rendering

/-- Rendering results to the end: the outputs with the names of their files, and the pool
afterwards. -/
def BufferPool.Renders (o : Options) (write : Renderer) (pool : BufferPool)
    (results : List (String × Except BuildError Scope))
    (outputs : List (String × Except GenerateError String)) (after : BufferPool) : Prop :=
  (Rendering.start pool results).Runs o write ⟨after, outputs.map fun p => .done p.1 p.2⟩

end IdlScope

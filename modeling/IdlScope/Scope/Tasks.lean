import IdlScope.Scope.Cache
import IdlScope.Scope.FieldJobs

/-!
# Tasks — builds that share a cache

A build reads and changes the cache in single steps, and between two steps of one build others
may take theirs. A task is a build as the sequence of these steps: what it asks of the cache,
and how it goes on with the answer.

A batch builds its roots on one cache. Without the option to build side by side each root waits
until the ones before it are done; with the option any root may take the next step. Where
several fields of a file fail, the collector decides which error is reported.
-/

namespace IdlScope

/-! ## Which error is reported -/

/-- Which of the errors of jobs that ran side by side may be reported: one of them, and always
some. -/
structure Collector where
  reports : List BuildError → BuildError → Prop
  mem : ∀ errors e, reports errors e → e ∈ errors
  total : ∀ errors, errors ≠ [] → ∃ e, reports errors e

namespace Collector

/-- The error of the first job that fails, as on a single thread. -/
def first : Collector where
  reports errors e := errors.head? = some e
  mem _ _ h := List.mem_of_mem_head? h
  total errors h := ⟨errors.head h, List.head?_eq_some_head h⟩

/-- The error of any job that fails. -/
def any : Collector where
  reports errors e := e ∈ errors
  mem _ _ h := h
  total _ h := List.exists_mem_of_ne_nil _ h

/-- Is the same error reported whenever the same jobs fail? -/
def Steady (c : Collector) : Prop :=
  ∀ errors e e', c.reports errors e → c.reports errors e' → e = e'

end Collector

/-! ## Tasks -/

/-- A computation on the cache, one request at a time. -/
inductive Task (α : Type) where
  | done (a : α)
  /-- Asks for the scope of a file. -/
  | look (file : String) (next : Option SharedScope → Task α)
  /-- Asks for the number of a file. -/
  | number (file : String) (next : FileId → Task α)
  /-- Stores a finished scope. -/
  | store (s : SharedScope) (next : SharedScope → Task α)
  /-- Asks which of several errors is reported. -/
  | report (errors : List BuildError) (next : BuildError → Task α)

namespace Task

variable {α β : Type}

/-- One task after another. -/
def bind : Task α → (α → Task β) → Task β
  | done a, f => f a
  | look file next, f => look file fun answer => (next answer).bind f
  | number file next, f => number file fun answer => (next answer).bind f
  | store s next, f => store s fun answer => (next answer).bind f
  | report errors next, f => report errors fun answer => (next answer).bind f

instance : Monad Task where
  pure := done
  bind := bind

/-- Has the task come to its end? -/
def isDone : Task α → Bool
  | done _ => true
  | _ => false

end Task

/-- A step of a build on the cache. -/
abbrev Job := ExceptT BuildError Task

namespace Job

/-- The scope of a file, if it is finished. -/
def look (file : String) : Job (Option SharedScope) := ExceptT.lift (.look file .done)

/-- The number of a file. -/
def number (file : String) : Job FileId := ExceptT.lift (.number file .done)

/-- The scope of a file as it is shared once the given one was stored. -/
def store (s : SharedScope) : Job SharedScope := ExceptT.lift (.store s .done)

/-- Fails with one of several errors. -/
def fail {α : Type} (errors : List BuildError) : Job α :=
  ExceptT.mk (.report errors fun e => .done (.error e))

end Job

/-! ## Builds -/

/-- The includes of a file that are built so far. -/
structure Linked where
  linkage : Linkage
  /-- What the includes that are there lead to. -/
  holds : List SharedScope

namespace Linked

/-- Appends an include. -/
def append (k : Linked) (language : Language) (s : SharedScope) : Linked :=
  ⟨(k.linkage.append language s.scope.document s.scope.package).2, k.holds ++ [s]⟩

/-- Appends the place of an include that the source never uses. -/
def skip (k : Linked) : Linked := { k with linkage := k.linkage.skip }

end Linked

/-- Finishes a file whose includes are linked, and shares its scope. -/
def Document.finishJob (d : Document) (o : Options) (file : FileId) (k : Linked) :
    Job SharedScope :=
  match d.outcome o (SharedScope.library k.holds) k.linkage with
  | .ok s => Job.store (.share file s k.holds)
  | .error errors => Job.fail errors

mutual

/-- Builds a file below the files that wait for it. -/
def Tree.job (o : Options) (waiting : List String) : Tree → Job SharedScope
  | ⟨d, includes⟩ => do
    match ← Job.look d.filename with
    | some s => return s
    | none =>
      if d.filename ∈ waiting then throw (.circularInclude (waiting ++ [d.filename]))
      let file ← Job.number d.filename
      d.check o
      let linkage : Linkage := .new (o.language.package d o.packagePrefix)
      let linked ← jobOfIncludes o d (waiting ++ [d.filename]) includes ⟨linkage, []⟩
      d.finishJob o file linked
termination_by structural t => t

/-- Builds the includes of a document and links them in order. -/
def jobOfIncludes (o : Options) (d : Document) (waiting : List String) :
    List (Included Tree) → Linked → Job Linked
  | [], linked => return linked
  | i :: is, linked => do
    let linked ← jobOfInclude o d waiting i linked
    jobOfIncludes o d waiting is linked
termination_by structural is => is

/-- Builds an include of a document and links it, or leaves its place empty. -/
def jobOfInclude (o : Options) (d : Document) (waiting : List String) :
    Included Tree → Linked → Job Linked
  | ⟨path, used, tree⟩, linked =>
    if used then do
      let s ← ExceptT.adapt (BuildError.through d.filename path) (tree.job o waiting)
      return linked.append o.language s
    else return linked.skip
termination_by structural i => i

end

/-! ## Steps -/

/-- What a step does that leaves a trace. -/
inductive Event where
  /-- The number of a file was asked for. -/
  | met (file : String)
  /-- A scope came into the cache. -/
  | stored (s : SharedScope)

/-- A step of a task: the events, and the task and the cache afterwards. -/
inductive Task.Step {α : Type} (c : Collector) :
    Task α → Cache → List Event → Task α → Cache → Prop
  | look (file : String) (next : Option SharedScope → Task α) (cache : Cache) :
    Step c (.look file next) cache [] (next (cache.get? file)) cache
  | number (file : String) (next : FileId → Task α) (cache : Cache) :
    Step c (.number file next) cache [.met file] (next (cache.fileId file).1)
      (cache.fileId file).2
  | store (s : SharedScope) (next : SharedScope → Task α) (cache : Cache)
    (h : cache.scopes.lookup s.file = none) :
    Step c (.store s next) cache [.stored s] (next (cache.insert s).1) (cache.insert s).2
  | keep (s existing : SharedScope) (next : SharedScope → Task α) (cache : Cache)
    (h : cache.scopes.lookup s.file = some existing) :
    Step c (.store s next) cache [] (next (cache.insert s).1) (cache.insert s).2
  | report (errors : List BuildError) (next : BuildError → Task α) (cache : Cache) (e : BuildError)
    (h : c.reports errors e) : Step c (.report errors next) cache [] (next e) cache

/-- What running a task comes to. -/
structure Ran (α : Type) where
  result : α
  /-- What happened in order. -/
  events : List Event
  cache : Cache

/-- The same with events before. -/
def Ran.behind {α : Type} (events : List Event) (r : Ran α) : Ran α :=
  { r with events := events ++ r.events }

/-- Runs a task by itself, on a single thread. -/
def Task.run {α : Type} : Task α → Cache → Option (Ran α)
  | .done a, cache => some ⟨a, [], cache⟩
  | .look file next, cache => (next (cache.get? file)).run cache
  | .number file next, cache =>
    ((next (cache.fileId file).1).run (cache.fileId file).2).map (·.behind [.met file])
  | .store s next, cache =>
    ((next (cache.insert s).1).run (cache.insert s).2).map
      (·.behind (if cache.scopes.lookup s.file = none then [.stored s] else []))
  | .report errors next, cache => errors.head?.bind fun e => (next e).run cache

/-! ## Batches -/

/-- Builds of several roots on one cache. -/
structure Batch where
  cache : Cache
  tasks : List (Task (Except BuildError SharedScope))

namespace Batch

/-- The builds of the given roots, none of them begun. -/
def start (o : Options) (cache : Cache) (roots : List Tree) : Batch :=
  ⟨cache, roots.map fun t => (t.job o []).run⟩

/-- A step of a batch is a step of one of its builds: of any of them if the options ask for
builds side by side, else of the first that is not done. Events are told with the place of the
build that they belong to. -/
inductive Step (o : Options) (c : Collector) : Batch → List (Nat × Event) → Batch → Prop
  | mk {before after : List (Task (Except BuildError SharedScope))}
    {task task' : Task (Except BuildError SharedScope)} {cache cache' : Cache}
    {events : List Event} (turn : o.parallel = true ∨ ∀ t ∈ before, t.isDone = true)
    (step : task.Step c cache events task' cache') :
    Step o c ⟨cache, before ++ task :: after⟩ (events.map (before.length, ·))
      ⟨cache', before ++ task' :: after⟩

/-- Steps of a batch one after the other. -/
inductive Runs (o : Options) (c : Collector) (b : Batch) : List (Nat × Event) → Batch → Prop
  | same : Runs o c b [] b
  | step {m n : Batch} {trace events : List (Nat × Event)} (h : Runs o c b trace m)
    (hs : Step o c m events n) : Runs o c b (trace ++ events) n

end Batch

/-- Building roots on a cache to the end: what happened in order, the result of each root, and
the cache afterwards. -/
def Cache.Builds (o : Options) (c : Collector) (cache : Cache) (roots : List Tree)
    (trace : List (Nat × Event)) (results : List (Except BuildError SharedScope))
    (after : Cache) : Prop :=
  (Batch.start o cache roots).Runs o c trace ⟨after, results.map .done⟩

end IdlScope

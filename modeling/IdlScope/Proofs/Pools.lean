import IdlScope.Outline
import IdlScope.Pool.Leases
import IdlScope.Pool.RenderJobs
import IdlScope.Proofs.Runs

/-!
# Pools — no text leaks from one buffer into another

Buffers are used again. What makes this safe is that a buffer is emptied when it is given back,
on whatever way it comes back, so what a pool hands out is always empty:

* **`Leases.sound_after`** — after any operations on any number of buffers, all idle ones are
  empty, and there are no more of them than the pool may keep.
* **`Leases.read?_after`** — the content of a buffer is what was written to it, and nothing that
  happens to other buffers matters.
* **`Run.getElem?_generate`** — the output for a root is the one of its own scope, written into an
  empty buffer.
* **`BufferPool.Renders.outputs_eq`** — so is each of several outputs that are written side by side.
* **`outputs_apart`** — so neither in a run nor among leases does a text get to another place.
-/

namespace IdlScope

/-! ## Pools -/

namespace BufferPool

/-- All idle buffers are empty, and the pool is not overfull. -/
structure Sound (p : BufferPool) : Prop where
  clean : p.Clean
  capped : p.idle.length ≤ p.maxIdle

variable {p : BufferPool}

theorem sound_new (maxIdle : Nat) : (new maxIdle).Sound :=
  ⟨clean_new maxIdle, Nat.zero_le _⟩

/-- Checking out takes an idle buffer if there is one. -/
theorem length_checkout (p : BufferPool) : p.checkout.2.idle.length = p.idle.length - 1 := by
  rw [checkout]
  split
  · next h => rw [h, List.length_nil]
  · next buffer rest h => rw [h, List.length_cons, Nat.add_sub_cancel]

theorem maxIdle_checkout (p : BufferPool) : p.checkout.2.maxIdle = p.maxIdle := by
  rw [checkout]
  split <;> rfl

/-- Giving back leaves one more idle buffer as long as there is room. -/
theorem length_giveBack (p : BufferPool) (buffer : String) :
    (p.giveBack buffer).idle.length =
      if p.idle.length < p.maxIdle then p.idle.length + 1 else p.idle.length := by
  rw [giveBack]
  split <;> rfl

theorem maxIdle_giveBack (p : BufferPool) (buffer : String) :
    (p.giveBack buffer).maxIdle = p.maxIdle := by
  rw [giveBack]
  split <;> rfl

theorem Sound.checkout (h : p.Sound) : p.checkout.2.Sound := by
  refine ⟨clean_checkout h.clean, ?_⟩
  rw [length_checkout, maxIdle_checkout]
  exact (Nat.sub_le _ _).trans h.capped

theorem Sound.giveBack (h : p.Sound) (buffer : String) : (p.giveBack buffer).Sound := by
  refine ⟨clean_giveBack h.clean buffer, ?_⟩
  rw [length_giveBack, maxIdle_giveBack]
  split
  · next hroom => exact hroom
  · exact h.capped

end BufferPool

/-! ## Leases -/

namespace Leases

/-- What is done with a pool. -/
inductive Op where
  | checkout
  | write (lease : Nat) (text : String)
  | release (lease : Nat)
  deriving DecidableEq

/-- The leases after one operation. -/
def step (l : Leases) : Op → Leases
  | .checkout => l.checkout.2
  | .write n text => (l.write n text).2
  | .release n => (l.release n).2

/-- The leases after operations in order. -/
def after (l : Leases) (ops : List Op) : Leases :=
  ops.foldl step l

/-- The text that an operation writes to a lease. -/
def Op.textFor? (n : Nat) : Op → Option String
  | .write m text => if m = n then some text else none
  | _ => none

/-- All that operations write to a lease. -/
def written (n : Nat) (ops : List Op) : String :=
  String.join (ops.filterMap (Op.textFor? n))

theorem written_cons (n : Nat) (op : Op) (ops : List Op) :
    written n (op :: ops) = (op.textFor? n).getD "" ++ written n ops := by
  rw [written, List.filterMap_cons]
  cases op.textFor? n with
  | none => simp [written]
  | some text => simp [written]

/-! ### One operation -/

variable (l : Leases) (n : Nat)

theorem read?_checkout : l.checkout.2.read? n =
    if n = l.slots.length then some l.pool.checkout.1 else l.read? n := by
  rw [read?, read?, checkout]
  by_cases h : n = l.slots.length
  · subst h
    simp
  · rw [if_neg h, List.getElem?_append]
    split
    · rfl
    · rw [List.getElem?_eq_none (by simp; omega), List.getElem?_eq_none (by omega)]

theorem read?_write (m : Nat) (text : String) : (l.write m text).2.read? n =
    if m = n then (l.read? n).map (· ++ text) else l.read? n := by
  rw [write]
  cases hm : l.read? m with
  | none =>
      by_cases h : m = n
      · subst h
        rw [if_pos rfl, hm]
        rfl
      · rw [if_neg h]
  | some content =>
      have hbound : m < l.slots.length := by
        by_contra hout
        rw [read?, List.getElem?_eq_none (Nat.le_of_not_lt hout)] at hm
        cases hm
      dsimp only
      rw [read?, List.getElem?_set]
      by_cases h : m = n
      · subst h
        rw [if_pos rfl, if_pos hbound, if_pos rfl, hm]
        rfl
      · rw [if_neg h, if_neg h, read?]

theorem read?_release (m : Nat) : (l.release m).2.read? n =
    if m = n then none else l.read? n := by
  rw [release]
  cases hm : l.slots[m]? with
  | none =>
      by_cases h : m = n
      · subst h
        rw [if_pos rfl, read?, hm]
        rfl
      · rw [if_neg h]
  | some slot =>
      cases slot with
      | none =>
          by_cases h : m = n
          · subst h
            rw [if_pos rfl, read?, hm]
            rfl
          · rw [if_neg h]
      | some content =>
          have hbound := (List.getElem?_eq_some_iff.mp hm).1
          dsimp only
          rw [read?, List.getElem?_set]
          by_cases h : m = n
          · subst h
            rw [if_pos rfl, if_pos hbound, if_pos rfl]
            rfl
          · rw [if_neg h, if_neg h, read?]

/-- Only checking out makes a new slot. -/
theorem length_slots_step (op : Op) :
    (l.step op).slots.length = l.slots.length + if op = .checkout then 1 else 0 := by
  cases op with
  | checkout => simp [step, checkout]
  | write n text =>
      rw [step, write]
      split <;> simp
  | release n =>
      rw [step, release]
      split <;> simp

/-- Only what ends a live lease gives a buffer back. -/
theorem sound_step (op : Op) (h : l.pool.Sound) :
    (l.step op).pool.Sound ∧ (l.step op).pool.maxIdle = l.pool.maxIdle := by
  cases op with
  | checkout => exact ⟨h.checkout, l.pool.maxIdle_checkout⟩
  | write n text =>
      rw [step, write]
      split <;> exact ⟨h, rfl⟩
  | release n =>
      rw [step, release]
      split
      · exact ⟨h, rfl⟩
      · exact ⟨h, rfl⟩
      · next content _ => exact ⟨h.giveBack content, l.pool.maxIdle_giveBack content⟩

/-- The pool after a live lease has ended. -/
theorem pool_release {content : String} (h : l.read? n = some content) :
    (l.release n).2.pool = l.pool.giveBack content := by
  rw [read?, Option.join_eq_some_iff] at h
  rw [release, h]

/-! ### Any operations -/

variable {l n} (ops : List Op)

/-- **The idle buffers stay empty and few.** -/
theorem sound_after (h : l.pool.Sound) :
    (l.after ops).pool.Sound ∧ (l.after ops).pool.maxIdle = l.pool.maxIdle := by
  induction ops generalizing l with
  | nil => exact ⟨h, rfl⟩
  | cons op ops ih =>
      obtain ⟨hsound, hmax⟩ := sound_step l op h
      obtain ⟨hsound', hmax'⟩ := ih hsound
      exact ⟨hsound', hmax'.trans hmax⟩

/-- The leases are numbered by the times that a buffer was checked out. -/
theorem length_slots_after :
    (l.after ops).slots.length = l.slots.length + ops.count .checkout := by
  induction ops generalizing l with
  | nil => rfl
  | cons op ops ih =>
      rw [after, List.foldl_cons, ← after, ih, length_slots_step, List.count_cons]
      simp only [beq_iff_eq]
      omega

/-- **A lease has what was written to it**, behind what it had, until it ends. -/
theorem read?_after (hn : n < l.slots.length) : (l.after ops).read? n =
    if .release n ∈ ops then none else (l.read? n).map (· ++ written n ops) := by
  induction ops generalizing l with
  | nil => simp [after, written, String.join]
  | cons op ops ih =>
      have hstep : n < (l.step op).slots.length := by
        rw [length_slots_step]
        omega
      rw [after, List.foldl_cons, ← after, ih hstep]
      cases op with
      | checkout =>
          have hother : n ≠ l.slots.length := by omega
          rw [step, read?_checkout, if_neg hother, written_cons]
          simp [Op.textFor?]
      | write m text =>
          rw [step, read?_write, written_cons]
          by_cases h : m = n
          · simp [h, Op.textFor?, Function.comp_def, String.append_assoc]
          · simp [h, Op.textFor?]
      | release m =>
          rw [step, read?_release, written_cons]
          by_cases h : m = n
          · simp [h]
          · simp [h, Ne.symm h, Op.textFor?]

/-- A lease that is just given out is the last one, and empty. -/
theorem read?_fresh (h : l.pool.Sound) : l.checkout.2.read? l.slots.length = some "" := by
  rw [read?_checkout, if_pos rfl, BufferPool.checkout_fst h.clean]

/-! ### From an empty pool -/

variable (maxIdle : Nat)

theorem sound_new_after : ((new maxIdle).after ops).pool.Sound ∧
    ((new maxIdle).after ops).pool.maxIdle = maxIdle :=
  sound_after ops (BufferPool.sound_new maxIdle)

theorem length_new_after : ((new maxIdle).after ops).slots.length = ops.count .checkout := by
  rw [length_slots_after]
  exact Nat.zero_add _

/-- **A lease has what was written to it since it was given out**, until it ends. -/
theorem read?_since (before since : List Op) :
    ((new maxIdle).after (before ++ .checkout :: since)).read? (before.count .checkout) =
      if .release (before.count .checkout) ∈ since then none
      else some (written (before.count .checkout) since) := by
  have hfresh := read?_fresh (sound_new_after before maxIdle).1
  have hlease : before.count .checkout <
      ((new maxIdle).after before).checkout.2.slots.length := by
    rw [← length_new_after before maxIdle]
    simp [checkout]
  rw [after, List.foldl_append, List.foldl_cons, ← after, ← after]
  show (((new maxIdle).after before).checkout.2.after since).read? _ = _
  rw [read?_after since hlease, ← length_new_after before maxIdle, hfresh, Option.map_some,
    String.empty_append]

end Leases

/-! ## Runs -/

/-- What a root with the file name comes to: the error of its build, or the one of the renderer, or
what the renderer makes of an empty buffer. -/
def Renderer.outputOf (write : Renderer) (file : String) :
    Except BuildError Scope → Except GenerateError String
  | .error e => .error (.build e)
  | .ok s => if (write s "").1 then .ok (write s "").2 else .error (.render file)

namespace Run

/-- Each root has its result, built on what the roots before it left. -/
theorem getElem?_buildAll (r : Run) (ts : List Tree) (i : Nat) :
    (r.buildAll ts).1[i]? = ts[i]?.map fun t =>
      (t.filename, ((r.library.after r.options (ts.take i)).build r.options t).1) := by
  induction ts generalizing r i with
  | nil => rfl
  | cons t ts ih =>
      cases i with
      | zero => rfl
      | succ i => exact ih (r.build t).2 i

/-- A root that has a scope has the one of its file. -/
theorem filename_of_mem_buildAll {r : Run} {ts : List Tree} :
    ∀ result ∈ (r.buildAll ts).1, ∀ s, result.2 = .ok s → s.filename = result.1 := by
  induction ts generalizing r with
  | nil => exact fun result h => absurd h List.not_mem_nil
  | cons t ts ih =>
      intro result h s hs
      rcases List.mem_cons.mp h with rfl | h
      · have hstored := (kept_any r.options t [] r.library).2 s hs
        exact Library.filename_of_scope? hstored
      · exact ih result h s hs

section Rendering

variable {r : Run} (h : r.pool.Sound) (write : Renderer)
include h

/-- What is rendered is written into an empty buffer, and the buffer comes back empty, whether
the renderer gave up or not. -/
theorem render_eq (s : Scope) :
    (r.render write s).1 = write.outputOf s.filename (.ok s) ∧
      (r.render write s).2.pool.Sound := by
  constructor
  · rw [render]
    dsimp only
    rw [BufferPool.checkout_fst h.clean]
    rfl
  · exact h.checkout.giveBack _

/-- Each output is made from its own result. -/
theorem renderAll_eq {results : List (String × Except BuildError Scope)}
    (hfiles : ∀ result ∈ results, ∀ s, result.2 = .ok s → s.filename = result.1) :
    (r.renderAll write results).1 =
        results.map (fun result => (result.1, write.outputOf result.1 result.2)) ∧
      (r.renderAll write results).2.pool.Sound := by
  induction results generalizing r with
  | nil => exact ⟨rfl, h⟩
  | cons result results ih =>
      obtain ⟨file, result⟩ := result
      have hrest : ∀ other ∈ results, ∀ s, other.2 = .ok s → s.filename = other.1 :=
        fun other hother => hfiles other (List.mem_cons_of_mem _ hother)
      cases result with
      | error e =>
          obtain ⟨houtputs, hpool⟩ := ih h hrest
          exact ⟨congrArg _ houtputs, hpool⟩
      | ok s =>
          obtain ⟨houtput, hsound⟩ := render_eq h write s
          obtain ⟨houtputs, hpool⟩ := ih hsound hrest
          rw [hfiles (file, .ok s) List.mem_cons_self s rfl] at houtput
          refine ⟨?_, hpool⟩
          rw [renderAll, List.map_cons, ← houtputs, ← houtput]

/-- **Each root has its own output**, whatever the pool was used for. -/
theorem getElem?_generate (ts : List Tree) (i : Nat) :
    (r.generate write ts).1[i]? = ts[i]?.map fun t => (t.filename, write.outputOf t.filename
      ((r.library.after r.options (ts.take i)).build r.options t).1) := by
  have hpool : (r.buildAll ts).2.pool.Sound := by
    rw [buildAll_snd]
    exact h
  rw [generate, (renderAll_eq hpool write filename_of_mem_buildAll).1, List.getElem?_map,
    getElem?_buildAll, Option.map_map]
  rfl

end Rendering

/-- The pool of a run is sound, whatever was rendered. -/
theorem sound_pool_serveAll {r : Run} (h : r.pool.Sound) (requests : List Request) :
    (r.serveAll requests).pool.Sound := by
  induction requests generalizing r with
  | nil => exact h
  | cons q qs ih =>
      refine ih ?_
      have hbuilt : ∀ ts, (r.buildAll ts).2.pool.Sound := by
        intro ts
        rw [buildAll_snd]
        exact h
      cases q with
      | build t => exact h
      | buildAll ts => exact hbuilt ts
      | generate write ts => exact (renderAll_eq (hbuilt ts) write filename_of_mem_buildAll).2

end Run

/-! ## Render jobs -/

/-- What a job for a result with the name of its file has come to: whatever it wrote so far, it
wrote into a buffer that was empty. -/
def RenderJob.For (write : Renderer) (p : String × Except BuildError Scope) : RenderJob → Prop
  | waiting file result => file = p.1 ∧ result = p.2
  | writing file s buffer => file = p.1 ∧ p.2 = .ok s ∧ buffer = ""
  | done file output => file = p.1 ∧ output = write.outputOf p.1 p.2

/-- A step of a job leaves the pool sound, whatever the renderer does. -/
theorem RenderJob.For.step {write : Renderer} {p : String × Except BuildError Scope}
    (hfile : ∀ s, p.2 = .ok s → s.filename = p.1) {j j' : RenderJob} (hj : j.For write p)
    {pool pool' : BufferPool} (hpool : pool.Sound) (hs : j.Step write pool j' pool') :
    j'.For write p ∧ pool'.Sound := by
  cases hs with
  | keep file e =>
      obtain ⟨rfl, he⟩ := hj
      refine ⟨⟨rfl, ?_⟩, hpool⟩
      rw [← he]
      rfl
  | checkout file s =>
      obtain ⟨rfl, hs⟩ := hj
      exact ⟨⟨rfl, hs.symm, BufferPool.checkout_fst hpool.clean⟩, hpool.checkout⟩
  | giveBack file s buffer =>
      obtain ⟨rfl, hs, rfl⟩ := hj
      refine ⟨⟨rfl, ?_⟩, hpool.giveBack _⟩
      rw [hs, Renderer.outputOf, hfile s hs]

namespace Rendering

variable {o : Options} {write : Renderer} {g m n : Rendering}

/-- The pool is sound, and there is a job for each result, in order. -/
structure Sound (write : Renderer) (results : List (String × Except BuildError Scope))
    (g : Rendering) : Prop where
  pool : g.pool.Sound
  jobs : List.Forall₂ (RenderJob.For write) results g.jobs

theorem sound_start {pool : BufferPool} (h : pool.Sound)
    (results : List (String × Except BuildError Scope)) :
    (start pool results).Sound write results := by
  refine ⟨h, List.forall₂_map_right_iff.mpr ?_⟩
  exact List.forall₂_same.mpr fun _ _ => ⟨rfl, rfl⟩

section Steps

variable {results : List (String × Except BuildError Scope)}
  (hfiles : ∀ p ∈ results, ∀ s, p.2 = .ok s → s.filename = p.1)
include hfiles

/-- A step of one job leaves the other ones alone. -/
theorem Sound.step (h : g.Sound write results) (hs : Step o write g m) : m.Sound write results := by
  obtain ⟨-, hs⟩ := hs
  next before after job job' pool pool' =>
  have hbefore := List.forall₂_take_append results before (job :: after) h.jobs
  have hafter := List.forall₂_drop_append results before (job :: after) h.jobs
  obtain ⟨p, rest, hjob, hrest, hdrop⟩ := List.forall₂_cons_right_iff.mp hafter
  have hsplit : results.take before.length ++ p :: rest = results := by
    rw [← hdrop, List.take_append_drop]
  have hp : p ∈ results := hsplit ▸ List.mem_append_right _ List.mem_cons_self
  obtain ⟨hjob', hpool⟩ := hjob.step (hfiles p hp) h.pool hs
  refine ⟨hpool, ?_⟩
  rw [← hsplit]
  exact List.rel_append hbefore (.cons hjob' hrest)

theorem Runs.sound (hr : g.Runs o write m) (h : g.Sound write results) : m.Sound write results := by
  induction hr with
  | same => exact h
  | step _ hs ih => exact ih.step hfiles hs

end Steps

theorem Runs.trans (h : g.Runs o write m) (h' : m.Runs o write n) : g.Runs o write n := by
  induction h' with
  | same => exact h
  | step _ hs ih => exact ih.step hs

end Rendering

/-- **Whatever order jobs take their steps in, each output is made from its own result.** -/
theorem BufferPool.Renders.outputs_eq {o : Options} {write : Renderer}
    {results : List (String × Except BuildError Scope)}
    (hfiles : ∀ p ∈ results, ∀ s, p.2 = .ok s → s.filename = p.1) {pool after : BufferPool}
    {outputs : List (String × Except GenerateError String)} (hpool : pool.Sound)
    (h : pool.Renders o write results outputs after) :
    outputs = results.map (fun p => (p.1, write.outputOf p.1 p.2)) ∧ after.Sound := by
  have hsound := Rendering.Runs.sound hfiles h (Rendering.sound_start hpool results)
  refine ⟨?_, hsound.pool⟩
  have hjobs := List.forall₂_map_right_iff.mp hsound.jobs
  rw [← List.map_id outputs]
  exact map_eq_of_forall₂ hjobs fun p q hq => Prod.ext hq.1 hq.2

/-- What a run renders one result after the other is what jobs may come to. -/
theorem Run.renders_renderAll (o : Options) (write : Renderer) (r : Run)
    (results : List (String × Except BuildError Scope)) :
    r.pool.Renders o write results (r.renderAll write results).1
      (r.renderAll write results).2.pool := by
  -- the jobs before a place are done, and the others are run one by one
  have hrest : ∀ (results : List (String × Except BuildError Scope)) (before : List RenderJob),
      (∀ j ∈ before, j.isDone = true) → ∀ r : Run,
      Rendering.Runs o write
        ⟨r.pool, before ++ results.map fun p => .waiting p.1 p.2⟩
        ⟨(r.renderAll write results).2.pool,
          before ++ (r.renderAll write results).1.map fun p => .done p.1 p.2⟩ := by
    intro results
    induction results with
    | nil => exact fun before _ r => .same
    | cons p results ih =>
        intro before hbefore r
        have hdone : ∀ file output, ∀ j ∈ before ++ [RenderJob.done file output],
            j.isDone = true := by
          intro file output
          exact List.forall_mem_append.mpr ⟨hbefore, List.forall_mem_singleton.mpr rfl⟩
        obtain ⟨file, result⟩ := p
        cases result with
        | error e =>
            refine (Rendering.Runs.same.step (.mk (.inr hbefore) (.keep file e r.pool))).trans ?_
            have hmore := ih _ (hdone file (.error (.build e))) r
            rw [List.append_assoc, List.append_assoc] at hmore
            exact hmore
        | ok s =>
            refine (Rendering.Runs.same.step
              (.mk (.inr hbefore) (.checkout file s r.pool))).trans ?_
            refine (Rendering.Runs.same.step (.mk (.inr hbefore) (.giveBack file s _ _))).trans ?_
            have hmore := ih _ (hdone file (r.render write s).1) (r.render write s).2
            rw [List.append_assoc, List.append_assoc] at hmore
            exact hmore
  exact hrest results [] (List.forall_mem_nil _) r

/-- **No text gets to another place.** In a run that has answered any requests, there is one
output for each root, in order, and it is made from the build of this root and, with an empty
buffer, by the renderer, of which nothing is known. Whatever was built, and in whatever order its
outputs are written side by side, each one is made from its own result, as when they are written one
after the other. In a pool that any operations were done with,
idle buffers are empty and not too many, a buffer that is checked out is empty and one of the idle
ones as long as there are any, a live lease has what was written to it since, and its end leaves one
more idle buffer as long as there is room. -/
theorem outputs_apart (o : Options) (earlier : List Request) (write : Renderer)
    (roots : List Tree) (maxIdle : Nat) (ops : List Leases.Op) :
    let r := (Run.new o).serveAll earlier
    let l := (Leases.new maxIdle).after ops
    (∀ i, (r.generate write roots).1[i]? = roots[i]?.map fun t => (t.filename,
        write.outputOf t.filename ((r.library.after o (roots.take i)).build o t).1)) ∧
      (∀ results : List (String × Except BuildError Scope),
        r.pool.Renders o write results (r.renderAll write results).1
          (r.renderAll write results).2.pool ∧
        ((∀ p ∈ results, ∀ s, p.2 = .ok s → s.filename = p.1) → ∀ outputs after,
          r.pool.Renders o write results outputs after →
            outputs = results.map (fun p => (p.1, write.outputOf p.1 p.2)) ∧ after.Clean)) ∧
      (l.pool.Clean ∧ l.pool.idle.length ≤ maxIdle) ∧
      (l.checkout.1 = ops.count .checkout ∧ l.checkout.2.read? l.checkout.1 = some "" ∧
        l.checkout.2.pool.idle.length = l.pool.idle.length - 1) ∧
      (∀ before after, ops = before ++ .checkout :: after →
        l.read? (before.count .checkout) =
          if .release (before.count .checkout) ∈ after then none
          else some (Leases.written (before.count .checkout) after)) ∧
      ∀ n content, l.read? n = some content → (l.release n).2.pool.idle.length =
        if l.pool.idle.length < maxIdle then l.pool.idle.length + 1 else l.pool.idle.length := by
  intro r l
  obtain ⟨hsound, hmax⟩ := Leases.sound_new_after ops maxIdle
  change l.pool.Sound at hsound
  change l.pool.maxIdle = maxIdle at hmax
  have hcount : l.slots.length = ops.count .checkout := Leases.length_new_after ops maxIdle
  have hpool : r.pool.Sound :=
    Run.sound_pool_serveAll (BufferPool.sound_new BufferPool.defaultMaxIdle) earlier
  refine ⟨?_, ?_, ⟨hsound.clean, hmax ▸ hsound.capped⟩,
    ⟨hcount, Leases.read?_fresh hsound, l.pool.length_checkout⟩, ?_, ?_⟩
  · intro i
    have hoptions : r.options = o := (Run.library_serveAll (Run.new o) earlier).2
    rw [Run.getElem?_generate hpool write roots i, hoptions]
  · intro results
    refine ⟨Run.renders_renderAll o write r results, fun hfiles outputs after hrenders => ?_⟩
    obtain ⟨houtputs, hafter⟩ := BufferPool.Renders.outputs_eq hfiles hpool hrenders
    exact ⟨houtputs, hafter.clean⟩
  · intro before after hops
    rw [show l = (Leases.new maxIdle).after ops from rfl, hops]
    exact Leases.read?_since maxIdle before after
  · intro n content hn
    rw [Leases.pool_release l n hn, BufferPool.length_giveBack, hmax]

set_option maxRecDepth 100000 in
/-- Of three roots one cannot be built and one is given up on behind its first line, and the third
one has nothing but its own outline, in whatever order they are written. The second of two leases
takes the buffer of the first one and has none of its text. -/
theorem outputs_apart_again :
    (let r := Run.new { parallel := true }
      let write := Outline.renderer ["user.thrift"]
      let roots := [Sample.broken, Sample.user, Sample.base]
      (r.generate write roots).1.map (fun p => (p.1, p.2.mapError GenerateError.message)) =
        [("broken.thrift", .error "broken.thrift: cannot resolve type 'base.Gone' of 'Lost.gone'"),
          ("user.thrift", .error "user.thrift: renderer failed"),
          ("base.thrift", .ok "package base\ntype Item\n  1 Id int32 = 0")] ∧
      ∀ outputs after, (r.buildAll roots).2.pool.Renders { parallel := true } write
        (r.buildAll roots).1 outputs after → outputs = (r.generate write roots).1) ∧
    let l := (Leases.new 1).after [.checkout, .write 0 "a", .release 0, .checkout, .write 1 "b"]
    l.read? 1 = some "b" ∧ (l.release 1).2.pool.idle.length = 1 := by
  constructor
  · -- for any roots, so that none has to be built here
    have hsame : ∀ (write : Renderer) (roots : List Tree) outputs after,
        ((Run.new { parallel := true }).buildAll roots).2.pool.Renders { parallel := true } write
          ((Run.new { parallel := true }).buildAll roots).1 outputs after →
            outputs = ((Run.new { parallel := true }).generate write roots).1 := by
      intro write roots outputs after hrenders
      obtain ⟨-, hrendered, -⟩ :=
        outputs_apart { parallel := true } [.buildAll roots] write roots 1 []
      obtain ⟨hgenerated, hall⟩ := hrendered ((Run.new { parallel := true }).buildAll roots).1
      rw [(hall Run.filename_of_mem_buildAll outputs after hrenders).1]
      exact (hall Run.filename_of_mem_buildAll _ _ hgenerated).1.symm
    exact ⟨by decide +kernel, hsame _ _⟩
  · intro l
    obtain ⟨-, -, -, -, hread, hrelease⟩ := outputs_apart {} [] (Outline.renderer []) [] 1
      [.checkout, .write 0 "a", .release 0, .checkout, .write 1 "b"]
    have hb : l.read? 1 = some "b" :=
      (hread [.checkout, .write 0 "a", .release 0] [.write 1 "b"] rfl).trans (by decide)
    exact ⟨hb, (hrelease 1 "b" hb).trans (by decide)⟩

end IdlScope

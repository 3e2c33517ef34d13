import IdlScope.Proofs.Caches
import Mathlib.Order.GameAdd

/-!
# Interleavings — what a task can rely on while others take their steps

Between two steps of a task other tasks may change the cache, but they only ever add to it, and
they keep whatever all tasks agree to keep.

* **`Task.Safe`** — wherever the cache has grown to in between, a step of the task keeps what is
  agreed on, and at the end of the task the result is as promised.
* **`Task.Safe.bind`** — a task that is put together is taken apart.
* **`Batch.Runs.safe`** — in a batch of safe tasks every task stays safe, in any order of steps.
* **`Batch.exists_runs`**, **`Batch.wellFounded_step`** — such a batch can always be run to its
  end, and in no order of steps does it go on forever.
* **`Batch.Runs.stored`**, **`Batch.Runs.files`** — the events of a run tell the whole cache.
-/

namespace IdlScope

/-! ## Events -/

/-- The scope that came into the cache, if one did. -/
def Event.stored? : Event → Option SharedScope
  | .met _ => none
  | .stored s => some s

/-- The file whose number was asked for, if one was. -/
def Event.met? : Event → Option String
  | .met file => some file
  | .stored _ => none

/-- The events of one build of a batch. -/
def eventsOf (n : Nat) (trace : List (Nat × Event)) : List Event :=
  (trace.filter (·.1 == n)).map Prod.snd

theorem eventsOf_append (n : Nat) (trace more : List (Nat × Event)) :
    eventsOf n (trace ++ more) = eventsOf n trace ++ eventsOf n more := by
  simp [eventsOf]

theorem eventsOf_map (n k : Nat) (events : List Event) :
    eventsOf n (events.map (k, ·)) = if k = n then events else [] := by
  by_cases h : k = n <;> simp [eventsOf, List.filter_map, Function.comp_def, h]

theorem mem_eventsOf {n : Nat} {trace : List (Nat × Event)} {e : Event} :
    e ∈ eventsOf n trace ↔ (n, e) ∈ trace := by
  simp [eventsOf]

/-! ## Caches only grow -/

namespace Cache

theorem insert_of_none {c : Cache} {s : SharedScope} (h : c.scopes.lookup s.file = none) :
    c.insert s = (s, { c with scopes := c.scopes ++ [(s.file, s)] }) := by
  rw [insert, h]

theorem insert_of_some {c : Cache} {s existing : SharedScope}
    (h : c.scopes.lookup s.file = some existing) : c.insert s = (existing, c) := by
  rw [insert, h]

theorem le_insert (c : Cache) (s : SharedScope) : c ≤ (c.insert s).2 := by
  cases h : c.scopes.lookup s.file with
  | none =>
      rw [insert_of_none h]
      exact ⟨List.prefix_refl _, List.prefix_append _ _⟩
  | some existing => rw [insert_of_some h]

theorem mem_stored_insert (c : Cache) {s u : SharedScope} (hu : u ∈ (c.insert s).2.stored) :
    u ∈ c.stored ∨ u = s := by
  cases h : c.scopes.lookup s.file with
  | none =>
      rw [insert_of_none h] at hu
      simpa [stored] using hu
  | some existing =>
      rw [insert_of_some h] at hu
      exact .inl hu

end Cache

namespace Task

variable {c : Collector} {α β : Type}

/-! ## Steps -/

section Steps

variable {t t' : Task α} {cache cache' : Cache} {events : List Event}

theorem Step.le (h : t.Step c cache events t' cache') : cache ≤ cache' := by
  cases h with
  | look | report => exact le_refl cache
  | number file => exact cache.le_fileId file
  | store s | keep s => exact cache.le_insert s

/-- The scopes in the cache are those that were stored, in order. -/
theorem Step.stored (h : t.Step c cache events t' cache') :
    cache'.stored = cache.stored ++ events.filterMap Event.stored? := by
  cases h with
  | look | report => simp
  | number file =>
      rw [Cache.stored, cache.scopes_fileId]
      simp [Event.stored?, Cache.stored]
  | store s _ _ hs =>
      rw [Cache.insert_of_none hs]
      simp [Event.stored?, Cache.stored]
  | keep s _ _ _ hs =>
      rw [Cache.insert_of_some hs]
      simp

/-- The files with a number are those whose number was asked for. -/
theorem Step.files (h : t.Step c cache events t' cache') :
    cache'.files = (events.filterMap Event.met?).foldl listed cache.files := by
  cases h with
  | look | report => rfl
  | number file => exact cache.files_fileId file
  | store s _ _ hs =>
      rw [Cache.insert_of_none hs]
      rfl
  | keep s _ _ _ hs =>
      rw [Cache.insert_of_some hs]
      rfl

end Steps

/-! ## Safe tasks -/

/-- Every step of the task keeps `I`, on whatever cache with `I` it is taken that has grown from
the last one that the task saw. At its end `Q` holds of the result, of the events of the task, and
of the cache. -/
def Safe (c : Collector) (I : Cache → Prop) (Q : α → List Event → Cache → Prop) :
    Task α → List Event → Cache → Prop
  | done a, past, cache => Q a past cache
  | look file next, past, cache =>
    ∀ m, cache ≤ m → I m → (next (m.get? file)).Safe c I Q past m
  | number file next, past, cache =>
    ∀ m, cache ≤ m → I m →
      I (m.fileId file).2 ∧
        (next (m.fileId file).1).Safe c I Q (past ++ [.met file]) (m.fileId file).2
  | store s next, past, cache =>
    ∀ m, cache ≤ m → I m →
      I (m.insert s).2 ∧ (next (m.insert s).1).Safe c I Q
        (past ++ if m.scopes.lookup s.file = none then [.stored s] else []) (m.insert s).2
  | report errors next, past, cache =>
    errors ≠ [] ∧ ∀ e, c.reports errors e → (next e).Safe c I Q past cache

/-- What is promised stays true while the cache grows. -/
def Stable (I : Cache → Prop) (Q : α → List Event → Cache → Prop) : Prop :=
  ∀ a past m m', m ≤ m' → I m' → Q a past m → Q a past m'

namespace Safe

variable {I : Cache → Prop} {Q : α → List Event → Cache → Prop} {t : Task α}
  {past : List Event} {cache cache' : Cache}

theorem mono (hQ : Stable I Q) (h : t.Safe c I Q past cache) (hle : cache ≤ cache')
    (hI : I cache') : t.Safe c I Q past cache' := by
  induction t with
  | done a => exact hQ a past cache cache' hle hI h
  | look file next ih => exact fun m hm => h m (hle.trans hm)
  | number file next ih => exact fun m hm => h m (hle.trans hm)
  | store s next ih => exact fun m hm => h m (hle.trans hm)
  | report errors next ih => exact ⟨h.1, fun e he => ih e (h.2 e he)⟩

/-- The cache at the end has `I` as well, and has grown from the one at the beginning. -/
theorem bounded {start : Cache} (h : t.Safe c I Q past cache) (hle : start ≤ cache)
    (hI : I cache) : t.Safe c I (fun a new m => Q a new m ∧ start ≤ m ∧ I m) past cache := by
  induction t generalizing past cache with
  | done a => exact ⟨h, hle, hI⟩
  | look file next ih => exact fun m hm hIm => ih _ (h m hm hIm) (hle.trans hm) hIm
  | number file next ih =>
      intro m hm hIm
      obtain ⟨hIm', h⟩ := h m hm hIm
      exact ⟨hIm', ih _ h ((hle.trans hm).trans (m.le_fileId file)) hIm'⟩
  | store s next ih =>
      intro m hm hIm
      obtain ⟨hIm', h⟩ := h m hm hIm
      exact ⟨hIm', ih _ h ((hle.trans hm).trans (m.le_insert s)) hIm'⟩
  | report errors next ih => exact ⟨h.1, fun e he => ih e (h.2 e he) hle hI⟩

theorem bind {f : α → Task β} {R : β → List Event → Cache → Prop}
    (h : t.Safe c I (fun a new m => (f a).Safe c I R new m) past cache) :
    (t.bind f).Safe c I R past cache := by
  induction t generalizing past cache with
  | done a => exact h
  | look file next ih => exact fun m hm hIm => ih _ (h m hm hIm)
  | number file next ih => exact fun m hm hIm => ⟨(h m hm hIm).1, ih _ (h m hm hIm).2⟩
  | store s next ih => exact fun m hm hIm => ⟨(h m hm hIm).1, ih _ (h m hm hIm).2⟩
  | report errors next ih => exact ⟨h.1, fun e he => ih e (h.2 e he)⟩

theorem imp {R : α → List Event → Cache → Prop} (h : t.Safe c I Q past cache)
    (hQR : ∀ a new m, Q a new m → R a new m) : t.Safe c I R past cache := by
  induction t generalizing past cache with
  | done a => exact hQR a past cache h
  | look file next ih => exact fun m hm hIm => ih _ (h m hm hIm)
  | number file next ih => exact fun m hm hIm => ⟨(h m hm hIm).1, ih _ (h m hm hIm).2⟩
  | store s next ih => exact fun m hm hIm => ⟨(h m hm hIm).1, ih _ (h m hm hIm).2⟩
  | report errors next ih => exact ⟨h.1, fun e he => ih e (h.2 e he)⟩

/-- A step of a safe task keeps `I` and leaves the task safe. -/
theorem step {t' : Task α} {events : List Event} (h : t.Safe c I Q past cache) (hI : I cache)
    (hs : t.Step c cache events t' cache') :
    I cache' ∧ t'.Safe c I Q (past ++ events) cache' := by
  cases hs with
  | look file next =>
      rw [List.append_nil]
      exact ⟨hI, h cache (le_refl cache) hI⟩
  | number file next => exact h cache (le_refl cache) hI
  | store s next _ hs =>
      have h := h cache (le_refl cache) hI
      rw [if_pos hs] at h
      exact h
  | keep s existing next _ hs =>
      have h := h cache (le_refl cache) hI
      rw [if_neg (by rw [hs]; exact Option.some_ne_none existing)] at h
      exact h
  | report errors next _ e he =>
      rw [List.append_nil]
      exact ⟨hI, h.2 e he⟩

end Safe

end Task

/-! ## Batches -/

namespace Batch

variable {o : Options} {c : Collector} {I : Cache → Prop}
  {Q : Nat → Except BuildError SharedScope → List Event → Cache → Prop} {b m : Batch}
  {trace : List (Nat × Event)}

/-- Every task of the batch is safe, after what it has done so far. -/
structure Safe (c : Collector) (I : Cache → Prop)
    (Q : Nat → Except BuildError SharedScope → List Event → Cache → Prop)
    (trace : List (Nat × Event)) (b : Batch) : Prop where
  agreed : I b.cache
  tasks : ∀ (n : Nat) (t : Task (Except BuildError SharedScope)), b.tasks[n]? = some t →
    t.Safe c I (Q n) (eventsOf n trace) b.cache

theorem Safe.step (hQ : ∀ n, Task.Stable I (Q n)) (h : b.Safe c I Q trace)
    {events : List (Nat × Event)} (hs : b.Step o c events m) : m.Safe c I Q (trace ++ events) := by
  obtain @⟨before, after, task, task', cache, cache', events, -, hs⟩ := hs
  have htask := h.tasks before.length task (by simp)
  obtain ⟨hI, htask'⟩ := htask.step h.agreed hs
  refine ⟨hI, fun n t ht => ?_⟩
  rw [eventsOf_append, eventsOf_map]
  by_cases hn : before.length = n
  · subst hn
    simp only [List.getElem?_append_right (Nat.le_refl _), Nat.sub_self, List.getElem?_cons_zero,
      Option.some.injEq] at ht
    subst ht
    rw [if_pos rfl]
    exact htask'
  · -- another task sees the cache grow and nothing else
    have hother : (before ++ task :: after)[n]? = some t := by
      rw [List.getElem?_append] at ht ⊢
      split
      · next hlt => rwa [if_pos hlt] at ht
      · next hge =>
        rw [if_neg hge] at ht
        obtain ⟨k, hk⟩ : ∃ k, n - before.length = k + 1 := ⟨n - before.length - 1, by omega⟩
        rwa [hk, List.getElem?_cons_succ] at ht ⊢
    rw [if_neg hn, List.append_nil]
    exact (h.tasks n t hother).mono (hQ n) hs.le hI

/-- In any order of steps every task of a batch stays safe. -/
theorem Runs.safe (hQ : ∀ n, Task.Stable I (Q n)) {past : List (Nat × Event)}
    (h : b.Safe c I Q past) (hr : b.Runs o c trace m) : m.Safe c I Q (past ++ trace) := by
  induction hr with
  | same => rwa [List.append_nil]
  | step _ hs ih =>
      rw [← List.append_assoc]
      exact ih.step hQ hs

theorem Runs.trans {n : Batch} {more : List (Nat × Event)} (h : b.Runs o c trace m)
    (h' : m.Runs o c more n) : b.Runs o c (trace ++ more) n := by
  induction h' with
  | same => rwa [List.append_nil]
  | step _ hs ih =>
      rw [← List.append_assoc]
      exact ih.step hs

theorem Runs.le (h : b.Runs o c trace m) : b.cache ≤ m.cache := by
  induction h with
  | same => exact le_refl _
  | step _ hs ih =>
      obtain ⟨-, hs⟩ := hs
      exact ih.trans hs.le

theorem Runs.length_tasks (h : b.Runs o c trace m) : m.tasks.length = b.tasks.length := by
  induction h with
  | same => rfl
  | step _ hs ih =>
      obtain ⟨-, hs⟩ := hs
      rw [← ih]
      simp

/-- The scopes in the cache are those that were stored, in order. -/
theorem Runs.stored (h : b.Runs o c trace m) :
    m.cache.stored = b.cache.stored ++ (trace.map Prod.snd).filterMap Event.stored? := by
  induction h with
  | same => simp
  | step _ hs ih =>
      obtain ⟨-, hs⟩ := hs
      have hstored := hs.stored
      simp only at ih hstored ⊢
      rw [hstored, ih]
      simp [List.map_map, Function.comp_def]

/-- The files with a number are those whose number was asked for. -/
theorem Runs.files (h : b.Runs o c trace m) :
    m.cache.files = ((trace.map Prod.snd).filterMap Event.met?).foldl listed b.cache.files := by
  induction h with
  | same => rfl
  | step _ hs ih =>
      obtain ⟨-, hs⟩ := hs
      have hfiles := hs.files
      simp only at ih hfiles ⊢
      rw [hfiles, ih, List.map_append, List.filterMap_append, List.foldl_append]
      simp [List.map_map, Function.comp_def]

/-! ## Runs to the end -/

/-- A safe task whose turn it is can be run to its end. -/
theorem exists_runs_task {before after : List (Task (Except BuildError SharedScope))}
    {q : Except BuildError SharedScope → List Event → Cache → Prop}
    (hbefore : ∀ t ∈ before, t.isDone = true) {t : Task (Except BuildError SharedScope)}
    {past : List Event} {cache : Cache} (h : t.Safe c I q past cache) (hI : I cache) :
    ∃ trace r cache', Runs o c ⟨cache, before ++ t :: after⟩ trace
      ⟨cache', before ++ .done r :: after⟩ ∧ I cache' := by
  -- one step, and then the rest of the task
  have hstep : ∀ {t t' : Task (Except BuildError SharedScope)} {cache cache' : Cache}
      {events : List Event}, t.Step c cache events t' cache' →
      (∃ trace r cache'', Runs o c ⟨cache', before ++ t' :: after⟩ trace
        ⟨cache'', before ++ .done r :: after⟩ ∧ I cache'') →
      ∃ trace r cache'', Runs o c ⟨cache, before ++ t :: after⟩ trace
        ⟨cache'', before ++ .done r :: after⟩ ∧ I cache'' := by
    rintro t t' cache cache' events hs ⟨trace, r, cache'', hruns, hI⟩
    exact ⟨_, r, cache'', (Runs.same.step (.mk (.inr hbefore) hs)).trans hruns, hI⟩
  induction t generalizing past cache with
  | done r => exact ⟨[], r, cache, .same, hI⟩
  | look file next ih => exact hstep (.look file next cache) (ih _ (h cache (le_refl _) hI) hI)
  | number file next ih =>
      obtain ⟨hI', h⟩ := h cache (le_refl _) hI
      exact hstep (.number file next cache) (ih _ h hI')
  | store s next ih =>
      obtain ⟨hI', h⟩ := h cache (le_refl _) hI
      cases hs : cache.scopes.lookup s.file with
      | none => exact hstep (.store s next cache hs) (ih _ h hI')
      | some existing => exact hstep (.keep s existing next cache hs) (ih _ h hI')
  | report errors next ih =>
      obtain ⟨e, he⟩ := c.total errors h.1
      exact hstep (.report errors next cache e he) (ih e (h.2 e he) hI)

/-- A batch of safe tasks can be run to its end, one task after the other. -/
theorem exists_runs (hQ : ∀ n, Task.Stable I (Q n)) {past : List (Nat × Event)}
    (h : b.Safe c I Q past) :
    ∃ trace, ∃ results : List (Except BuildError SharedScope), ∃ cache,
      b.Runs o c trace ⟨cache, results.map .done⟩ := by
  -- the tasks before a place are done, and the others are run one by one
  have hrest : ∀ (after : List (Task (Except BuildError SharedScope)))
      (done : List (Except BuildError SharedScope)) (cache : Cache) (trace : List (Nat × Event)),
      b.Runs o c trace ⟨cache, done.map .done ++ after⟩ →
      ∃ trace, ∃ results : List (Except BuildError SharedScope), ∃ cache,
        b.Runs o c trace ⟨cache, results.map .done⟩ := by
    intro after
    induction after with
    | nil =>
        intro done cache trace hr
        rw [List.append_nil] at hr
        exact ⟨trace, done, cache, hr⟩
    | cons t after ih =>
        intro done cache trace hr
        have hsafe := hr.safe hQ h
        have ht := hsafe.tasks (done.map Task.done).length t (by simp)
        have hdone : ∀ u ∈ done.map (Task.done (α := Except BuildError SharedScope)),
            u.isDone = true := by
          intro u hu
          obtain ⟨r, -, rfl⟩ := List.mem_map.mp hu
          rfl
        obtain ⟨more, r, cache', hmore, -⟩ : ∃ more r cache',
            Runs o c ⟨cache, done.map .done ++ t :: after⟩ more
              ⟨cache', done.map .done ++ .done r :: after⟩ ∧ I cache' :=
          exists_runs_task hdone ht hsafe.agreed
        refine ih (done ++ [r]) cache' (trace ++ more) ?_
        rw [List.map_append, List.append_assoc]
        exact hr.trans hmore
  exact hrest b.tasks [] b.cache [] .same

/-- One task of a list has taken a step, on some cache. -/
def Moves (ts' ts : List (Task (Except BuildError SharedScope))) : Prop :=
  ∃ before t t' after, ts = before ++ t :: after ∧ ts' = before ++ t' :: after ∧
    ∃ c cache events cache', Task.Step c t cache events t' cache'

/-- Steps of several tasks come to an end, because those of each task do. -/
theorem acc_moves (ts : List (Task (Except BuildError SharedScope))) : Acc Moves ts := by
  let steps : Task (Except BuildError SharedScope) → Task (Except BuildError SharedScope) → Prop :=
    fun t' t => ∃ c cache events cache', Task.Step c t cache events t' cache'
  -- a task steps to what it goes on with, which is a part of it
  have htask : ∀ t, Acc steps t := by
    intro t
    induction t with
    | done r => exact ⟨_, by rintro t' ⟨_, _, _, _, ⟨⟩⟩⟩
    | look file next ih => exact ⟨_, by rintro t' ⟨_, _, _, _, ⟨⟩⟩; exact ih _⟩
    | number file next ih => exact ⟨_, by rintro t' ⟨_, _, _, _, ⟨⟩⟩; exact ih _⟩
    | store s next ih => exact ⟨_, by rintro t' ⟨_, _, _, _, ⟨⟩⟩ <;> exact ih _⟩
    | report errors next ih => exact ⟨_, by rintro t' ⟨_, _, _, _, ⟨⟩⟩; exact ih _⟩
  induction ts with
  | nil =>
      refine ⟨_, ?_⟩
      rintro ts' ⟨before, t, t', after, h, -⟩
      simp at h
  | cons t ts ih =>
      -- a step is one of the first task or one of the others
      have hpair := (htask t).prod_gameAdd ih
      suffices hcons : ∀ p : Task (Except BuildError SharedScope) × _,
          Acc (Prod.GameAdd steps Moves) p → Acc Moves (p.1 :: p.2) from hcons (t, ts) hpair
      intro p hp
      induction hp with
      | intro p _ ih =>
          refine ⟨_, ?_⟩
          rintro ts' ⟨before, u, u', after, h, rfl, hs⟩
          cases before with
          | nil =>
              obtain ⟨rfl, rfl⟩ := List.cons.inj h
              exact ih (u', _) (.fst hs)
          | cons first before =>
              obtain ⟨rfl, heq⟩ := List.cons.inj h
              exact ih (_, before ++ u' :: after) (.snd ⟨before, u, u', after, heq, rfl, hs⟩)

/-- No batch goes on forever, in whatever order its builds take their steps. -/
theorem wellFounded_step (o : Options) (c : Collector) :
    WellFounded fun m b : Batch => ∃ events, b.Step o c events m := by
  refine ⟨fun b => ?_⟩
  refine Subrelation.accessible (fun {m b} h => ?_)
    (InvImage.accessible Batch.tasks (acc_moves b.tasks))
  obtain ⟨events, hs⟩ := h
  obtain @⟨before, after, task, task', cache, cache', events, -, hs⟩ := hs
  exact ⟨before, task, task', after, rfl, rfl, c, cache, events, cache', hs⟩

end Batch

end IdlScope

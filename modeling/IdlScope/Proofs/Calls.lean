import IdlScope.Proofs.Runs
import IdlScope.Proofs.SharedBuilds

/-!
# Calls — what a run is called for, one call after the other

Between two calls a run remembers its cache. A call builds a batch of roots on it, or asks for the
number of a file.

* **`Cache.Calls`** — calls one after the other, with everything that happened in order.
* **`Cache.Builds.agreed`**, **`Cache.Builds.promise`** — a batch keeps what builds agree on, and
  each of its builds keeps its promise.
* **`Cache.Calls.stored`**, **`Cache.Calls.files`** — what happened tells the whole cache.
-/

namespace IdlScope

/-- What a run can be called for. -/
inductive Call where
  | request (q : Request)
  /-- The number of a file. -/
  | fileId (file : String)

/-- The root trees of a call. -/
def Call.trees : Call → List Tree
  | request q => q.trees
  | fileId _ => []

/-- Calls that a cache answers one after the other: what happened in order, and the cache
afterwards. -/
inductive Cache.Calls (o : Options) (c : Collector) (cache : Cache) :
    List Call → List Event → Cache → Prop
  | none : Calls o c cache [] [] cache
  | request {calls : List Call} {events : List Event} {m after : Cache}
    {trace : List (Nat × Event)} {results : List (Except BuildError SharedScope)} (q : Request)
    (h : Calls o c cache calls events m) (hq : m.Builds o c q.trees trace results after) :
    Calls o c cache (calls ++ [.request q]) (events ++ trace.map Prod.snd) after
  | fileId {calls : List Call} {events : List Event} {m : Cache} (file : String)
    (h : Calls o c cache calls events m) :
    Calls o c cache (calls ++ [.fileId file]) (events ++ [.met file]) (m.fileId file).2

/-! ## Batches -/

section Batches

variable {o : Options} {c : Collector} {F G : Tree → Prop} {cache after : Cache}
  {roots : List Tree} {trace : List (Nat × Event)}
  {results : List (Except BuildError SharedScope)}

/-- What the builds of a batch promise. -/
def Batch.Promise (o : Options) (c : Collector) (F : Tree → Prop) (cache : Cache)
    (roots : List Tree) (n : Nat) (r : Except BuildError SharedScope) (events : List Event)
    (m : Cache) : Prop :=
  ∀ t, roots[n]? = some t → t.Promise o c (F t) [] cache [] r events m

theorem Batch.Promise.stable (n : Nat) :
    Task.Stable (Cache.Agreed o F) (Batch.Promise o c F cache roots n) :=
  fun r new m m' hle hm' h t ht => Tree.Promise.stable _ _ t _ _ r new m m' hle hm' (h t ht)

variable (hF : Tree.Family F) (hG : Tree.Agrees F G) (hroots : ∀ t ∈ roots, G t)
  (hcache : cache.Agreed o F)
include hF hG hroots hcache

theorem Batch.safe_start :
    (Batch.start o cache roots).Safe c (Cache.Agreed o F) (Batch.Promise o c F cache roots) [] := by
  refine ⟨hcache, fun n task htask => ?_⟩
  rw [start, List.getElem?_map] at htask
  obtain ⟨t, ht, rfl⟩ := Option.map_eq_some_iff.mp htask
  refine (safe_job hF hG t (hroots t (List.mem_of_getElem? ht)) [] (Tree.above_nil G t) []
    cache).imp fun r new m hr u hu => ?_
  rw [ht] at hu
  exact Option.some.inj hu ▸ hr

theorem Cache.Builds.safe (h : cache.Builds o c roots trace results after) :
    Batch.Safe c (Agreed o F) (Batch.Promise o c F cache roots) trace
      ⟨after, results.map .done⟩ := by
  have hsafe := Batch.Runs.safe Batch.Promise.stable (Batch.safe_start hF hG hroots hcache) h
  exact hsafe

/-- A batch keeps what builds agree on. -/
theorem Cache.Builds.agreed (h : cache.Builds o c roots trace results after) : after.Agreed o F :=
  (safe hF hG hroots hcache h).agreed

omit hF hG hroots hcache in
theorem Cache.Builds.length_results (h : cache.Builds o c roots trace results after) :
    results.length = roots.length := by
  have hlength := Batch.Runs.length_tasks h
  simpa [Batch.start] using hlength

/-- The build of each root keeps its promise. -/
theorem Cache.Builds.promise (h : cache.Builds o c roots trace results after) {n : Nat} {t : Tree}
    (ht : roots[n]? = some t) {r : Except BuildError SharedScope} (hr : results[n]? = some r) :
    t.Promise o c (F t) [] cache [] r (eventsOf n trace) after := by
  refine (safe hF hG hroots hcache h).tasks n (.done r) ?_ t ht
  rw [List.getElem?_map, hr]
  rfl

/-- A batch can always be run to its end. -/
theorem Cache.Agreed.exists_builds :
    ∃ trace results after, cache.Builds o c roots trace results after :=
  Batch.exists_runs Batch.Promise.stable (Batch.safe_start hF hG hroots hcache)

end Batches

/-! ## Calls -/

section Calls

variable {o : Options} {c : Collector} {F G : Tree → Prop} {cache after : Cache}
  {calls : List Call} {events : List Event}

theorem Cache.Calls.agreed (hF : Tree.Family F) (hG : Tree.Agrees F G)
    (h : cache.Calls o c calls events after) (hcalls : ∀ t ∈ calls.flatMap Call.trees, G t)
    (hcache : cache.Agreed o F) : after.Agreed o F := by
  induction h with
  | none => exact hcache
  | request q _ hq ih =>
      rw [List.flatMap_append] at hcalls
      refine hq.agreed hF hG (fun t ht => hcalls t (List.mem_append_right _ ?_))
        (ih fun t ht => hcalls t (List.mem_append_left _ ht))
      simpa [Call.trees] using ht
  | fileId file _ ih =>
      rw [List.flatMap_append] at hcalls
      exact (ih fun t ht => hcalls t (List.mem_append_left _ ht)).fileId file

theorem Cache.Calls.le (h : cache.Calls o c calls events after) : cache ≤ after := by
  induction h with
  | none => exact le_refl _
  | request q _ hq ih => exact ih.trans (Batch.Runs.le hq)
  | fileId file _ ih => exact ih.trans (Cache.le_fileId _ file)

/-- The scopes in the cache are those that were stored, in order. -/
theorem Cache.Calls.stored (h : cache.Calls o c calls events after) :
    after.stored = cache.stored ++ events.filterMap Event.stored? := by
  induction h with
  | none => simp
  | request q _ hq ih =>
      rw [List.filterMap_append, ← List.append_assoc, ← ih]
      exact Batch.Runs.stored hq
  | @fileId _ _ m file _ ih =>
      rw [Cache.stored, m.scopes_fileId, ← Cache.stored, ih]
      simp [Event.stored?]

/-- The files with a number are those whose number was asked for. -/
theorem Cache.Calls.files (h : cache.Calls o c calls events after) :
    after.files = (events.filterMap Event.met?).foldl listed cache.files := by
  induction h with
  | none => rfl
  | request q _ hq ih =>
      rw [List.filterMap_append, List.foldl_append, ← ih]
      exact Batch.Runs.files hq
  | @fileId _ _ m file _ ih =>
      rw [List.filterMap_append, List.foldl_append, ← ih]
      exact m.files_fileId file

/-- Files whose numbers are asked for one after the other are listed where they were met first. -/
theorem foldl_listed_nil (met : List String) : met.foldl listed [] = met.eraseDups := by
  induction met using List.reverseRecOn with
  | nil => rfl
  | append_singleton met file ih =>
      rw [List.foldl_append, ih, List.foldl_cons, List.foldl_nil, List.eraseDups_append, listed]
      by_cases h : file ∈ met <;> simp [List.removeAll, List.eraseDups_cons, h]

theorem Cache.Calls.files_eq (h : Cache.empty.Calls o c calls events after) :
    after.files = (events.filterMap Event.met?).eraseDups :=
  h.files.trans (foldl_listed_nil _)

end Calls

/-! ## Families without trees -/

/-- No name stands for a tree: then builds agree on nothing but the order of the cache. -/
theorem Tree.family_none : Family fun _ => False := ⟨nofun, nofun⟩

theorem Tree.agrees_none : Agrees (fun _ => False) fun _ => True :=
  ⟨fun _ _ _ _ _ => trivial, nofun⟩

theorem Cache.InOrder.agreed {o : Options} {cache : Cache} (h : cache.InOrder o) :
    cache.Agreed o fun _ => False :=
  ⟨h, nofun⟩

end IdlScope

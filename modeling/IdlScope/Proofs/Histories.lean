import IdlScope.Proofs.SequentialRuns

/-!
# Histories — the cache of a run after any calls

Whatever a run was called for, and in whatever order the builds of a call took their steps, its
cache is in order.

* **`Cache.Builds.leaves`** — what a build of a batch gives, and what it leaves behind.
* **`calls_in_order`** — files keep their numbers, scopes stay as they were finished, and includes
  lead to scopes that were finished before.
-/

namespace IdlScope

/-! ## Builds that change nothing -/

section Silent

variable {o : Options} {c : Collector} {b m : Batch} {trace : List (Nat × Event)}

/-- Where nothing happened, the cache is as it was. -/
theorem Batch.Runs.cache_eq (h : b.Runs o c trace m) (htrace : trace = []) : m.cache = b.cache := by
  induction h with
  | same => rfl
  | step _ hs ih =>
      obtain ⟨hfirst, hevents⟩ := List.append_eq_nil_iff.mp htrace
      obtain @⟨before, rest, task, task', cache, cache', events, -, hs⟩ := hs
      refine Eq.trans ?_ (ih hfirst)
      obtain rfl := List.map_eq_nil_iff.mp hevents
      cases hs with
      | look | report => rfl
      | keep _ _ _ _ hlookup => exact congrArg Prod.snd (Cache.insert_of_some hlookup)

/-- Events are told with the places of builds. -/
theorem Batch.Runs.lt_of_mem (h : b.Runs o c trace m) {n : Nat} {e : Event}
    (he : (n, e) ∈ trace) : n < b.tasks.length := by
  induction h with
  | same => exact absurd he List.not_mem_nil
  | step h hs ih =>
      rcases List.mem_append.mp he with he | he
      · exact ih he
      · rw [← h.length_tasks]
        obtain ⟨-, -⟩ := hs
        obtain ⟨_, _, heq⟩ := List.mem_map.mp he
        simp [← (Prod.mk.inj heq).1]

end Silent

/-! ## Caches in order -/

/-- The numbers are the places of the files. -/
theorem Cache.Numbered.get?_mk_iff {cache : Cache} (h : cache.Numbered) {n : Nat} {file : String} :
    cache.paths.get? file = some ⟨n⟩ ↔ cache.files[n]? = some file :=
  h.get?_eq_some_iff

/-- What a build leaves behind that is part of a batch: what it gives, and what happened for it. -/
structure Tree.Leaves (o : Options) (t : Tree) (found : Cache) (r : Except BuildError SharedScope)
    (events : List Event) (after : Cache) : Prop where
  /-- A scope that is there is given, and nothing happens. -/
  cached : ∀ s, found.get? t.filename = some s → r = .ok s ∧ events = []
  given : ∀ s, r = .ok s → after.get? t.filename = some s
  /-- A build that fails stores nothing but whole scopes of files below its own. -/
  failed : ∀ e, r = .error e → ∀ s, .stored s ∈ events → s.filename ≠ t.filename ∧
    ∃ i ∈ t.includes, i.used = true ∧ ∃ u, i.content.Uses u ∧ s.Whole o u

theorem Cache.Builds.leaves {o : Options} {c : Collector} {cache after : Cache}
    {roots : List Tree} {trace : List (Nat × Event)}
    {results : List (Except BuildError SharedScope)} (hcache : cache.InOrder o)
    (h : cache.Builds o c roots trace results after) {n : Nat} {t : Tree} (ht : roots[n]? = some t)
    {r : Except BuildError SharedScope} (hr : results[n]? = some r) :
    t.Leaves o cache r (eventsOf n trace) after := by
  have hpromise := h.promise Tree.family_none Tree.agrees_none (fun _ _ => trivial) hcache.agreed
    ht hr
  refine ⟨hpromise.cached, hpromise.found, fun e he s hs => ?_⟩
  obtain ⟨i, hi, hused, u, huses, hnew, hwhole⟩ :=
    (hpromise.blocked e he s hs).resolve_left List.not_mem_nil
  refine ⟨?_, i, hi, hused, u, huses, hwhole⟩
  rw [hwhole.filename]
  exact fun heq => hnew (List.mem_singleton.mpr heq)

/-- Holding and including agree: what an include of a scope leads to is the scope of its file. -/
theorem Cache.InOrder.leads {o : Options} {cache : Cache} (h : cache.InOrder o)
    {before after : List SharedScope} {s : SharedScope}
    (hs : cache.stored = before ++ s :: after) :
    List.Forall₂ (fun i u => u ∈ before ∧ cache.get? i.file = some u) s.scope.linkage.present
      s.holds := by
  refine (h.stands before s after hs).leads.imp fun i u ⟨hu, hdescribes⟩ => ⟨hu, ?_⟩
  refine h.get?_eq_some_iff.mpr ⟨?_, hdescribes.file.symm⟩
  rw [hs]
  exact List.mem_append_left _ hu

/-- **The cache after any calls.** The numbers count up from zero in the order in which the files
were met first, and a call for a number tells the one of its file. The scopes are those that were
stored, in order, each under the number of its own file. The includes of a scope lead, one by one,
to the scopes that are kept for their files, and everything that can be reached from them was
stored before the scope itself. What more calls do leaves numbers and scopes as they are. A file
that has a scope is not built again, and a build that fails stores nothing but whole scopes of
files below its own. -/
theorem calls_in_order (o : Options) (c : Collector) {calls : List Call} {events : List Event}
    {cache : Cache} (h : Cache.empty.Calls o c calls events cache) :
    (∀ n file, cache.paths.get? file = some ⟨n⟩ ↔
      (events.filterMap Event.met?).eraseDups[n]? = some file) ∧
    (∀ file, (events.filterMap Event.met? ++ [file]).eraseDups[(cache.fileId file).1.index]? =
      some file) ∧
    cache.stored = events.filterMap Event.stored? ∧
    (∀ id s, cache.scopes.lookup id = some s ↔
      s ∈ cache.stored ∧ cache.paths.get? s.filename = some id) ∧
    (∀ s ∈ cache.stored, cache.paths.get? s.filename = some s.file ∧ ∃ t, s.Whole o t) ∧
    (∀ before s after, cache.stored = before ++ s :: after →
      List.Forall₂ (fun i u => u ∈ before ∧ cache.get? i.file = some u) s.scope.linkage.present
        s.holds ∧
      ∀ u ∈ SharedScope.allOf s.holds, u ∈ before ∧ u.filename ≠ s.filename) ∧
    (∀ more events' later, cache.Calls o c more events' later →
      cache.paths.entries <+: later.paths.entries ∧ cache.scopes <+: later.scopes) ∧
    (∀ roots trace results after, cache.Builds o c roots trace results after →
      results.length = roots.length ∧
      ∀ (n : Nat) (t : Tree) r, roots[n]? = some t → results[n]? = some r →
        t.Leaves o cache r (eventsOf n trace) after) ∧
    ∀ (t : Tree) s trace results after, cache.get? t.filename = some s →
      cache.Builds o c [t] trace results after → results = [.ok s] ∧ after = cache := by
  have hempty : Cache.empty.Agreed o fun _ => False := (Cache.InOrder.empty o).agreed
  have horder : cache.InOrder o :=
    (h.agreed Tree.family_none Tree.agrees_none (fun _ _ => trivial) hempty).inOrder
  refine ⟨?_, ?_, ?_, ?_, ?_, ?_, ?_, ?_, ?_⟩
  · intro n file
    rw [← h.files_eq]
    exact horder.numbered.get?_mk_iff
  · intro file
    have hmore := (h.fileId file).files_eq
    rw [List.filterMap_append] at hmore
    refine hmore ▸ ?_
    exact (horder.numbered.fileId file).get?_eq_some_iff.mp (cache.get?_fileId file)
  · exact h.stored
  · intro id s
    rw [horder.lookup_eq_some_iff]
    refine and_congr_right fun hs => ?_
    rw [horder.filed s hs, Option.some_inj]
  · intro s hs
    obtain ⟨before, after, heq⟩ := List.append_of_mem hs
    exact ⟨horder.filed s hs, (horder.stands before s after heq).whole⟩
  · intro before s after heq
    refine ⟨horder.leads heq, fun u hu => ?_⟩
    have hbefore := horder.allOf_holds_subset heq u hu
    exact ⟨hbefore, horder.filename_ne_of_before heq hbefore⟩
  · exact fun more events' later hlater => hlater.le
  · exact fun roots trace results after hbuilds =>
      ⟨hbuilds.length_results, fun n t r ht hr => hbuilds.leaves horder ht hr⟩
  · intro t s trace results after hs hbuilds
    obtain ⟨r, rfl⟩ := List.length_eq_one_iff.mp hbuilds.length_results
    obtain ⟨rfl, hevents⟩ := (hbuilds.leaves horder (n := 0) (t := t) rfl rfl).cached s hs
    refine ⟨rfl, Batch.Runs.cache_eq hbuilds ?_⟩
    -- whatever happened would have happened for the only root
    refine List.eq_nil_iff_forall_not_mem.mpr fun ⟨n, e⟩ he => ?_
    have hn : n < 1 := Batch.Runs.lt_of_mem hbuilds he
    obtain rfl := Nat.lt_one_iff.mp hn
    exact List.eq_nil_iff_forall_not_mem.mp hevents e (mem_eventsOf.mpr he)

set_option maxRecDepth 100000 in
/-- A file that fails keeps its number and leaves the file that it includes built. The other root
holds that very scope, and asking for it once more changes nothing. -/
theorem calls_in_order_broken :
    ∃ events cache, Cache.empty.Calls {} .first
        [.request (.buildAll [Sample.broken, Sample.user]), .fileId "late.thrift"] events cache ∧
      (cache.paths.get? "broken.thrift" = some ⟨0⟩ ∧ cache.paths.get? "base.thrift" = some ⟨1⟩ ∧
        cache.paths.get? "user.thrift" = some ⟨2⟩ ∧ cache.paths.get? "late.thrift" = some ⟨3⟩) ∧
      ∃ base user, cache.stored = [base, user] ∧ base.filename = "base.thrift" ∧
        user.filename = "user.thrift" ∧ user.holds = [base] ∧
        ∀ trace results after, cache.Builds {} .first [Sample.base] trace results after →
          results = [.ok base] ∧ after = cache := by
  obtain ⟨events, built, hcalls, hlibrary⟩ :=
    Run.exists_calls {} [.buildAll [Sample.broken, Sample.user]]
  have hcalls := hcalls.fileId "late.thrift"
  refine ⟨_, _, hcalls, ?_⟩
  generalize hcache : (built.fileId "late.thrift").2 = cache at hcalls ⊢
  have hknown : cache.library =
      ((Run.new {}).serveAll [.buildAll [Sample.broken, Sample.user]]).library.meet
        "late.thrift" := by
    rw [hlibrary, ← hcache, Cache.library_fileId]
  have hfiles : cache.files = ["broken.thrift", "base.thrift", "user.thrift", "late.thrift"] :=
    (congrArg Library.files hknown).trans (by decide +kernel)
  have hscopes : (cache.stored.map (·.scope)).map (fun s => (s.filename,
      s.linkage.present.map (·.file))) =
      [("base.thrift", []), ("user.thrift", ["base.thrift"])] :=
    (congrArg (fun l : Library => l.scopes.map fun s => (s.filename,
      s.linkage.present.map (·.file))) hknown).trans (by decide +kernel)
  obtain ⟨hnumbers, -, -, -, -, hstands, -, -, hagain⟩ := calls_in_order {} .first hcalls
  simp only [← hcalls.files_eq, hfiles] at hnumbers
  refine ⟨⟨(hnumbers 0 _).mpr rfl, (hnumbers 1 _).mpr rfl, (hnumbers 2 _).mpr rfl,
    (hnumbers 3 _).mpr rfl⟩, ?_⟩
  rw [List.map_map] at hscopes
  obtain ⟨base, rest, hstored, hbase, hrest⟩ := List.map_eq_cons_iff.mp hscopes
  obtain ⟨user, rest, rfl, huser, hnil⟩ := List.map_eq_cons_iff.mp hrest
  obtain rfl := List.map_eq_nil_iff.mp hnil
  obtain ⟨husername, hincludes⟩ := Prod.mk.inj huser
  -- the only include of the other root leads to the only scope before it
  obtain ⟨hleads, -⟩ := hstands [base] user [] hstored
  obtain ⟨i, rest, hpresent, hfile, hnil⟩ := List.map_eq_cons_iff.mp hincludes
  obtain rfl := List.map_eq_nil_iff.mp hnil
  rw [hpresent] at hleads
  generalize hholds : user.holds = holds at hleads
  obtain _ | ⟨⟨hu, hget⟩, hrest⟩ := hleads
  obtain rfl := List.forall₂_nil_left_iff.mp hrest
  obtain rfl := List.mem_singleton.mp hu
  rw [hfile] at hget
  exact ⟨_, user, hstored, congrArg Prod.fst hbase, husername, hholds,
    fun trace results after => hagain Sample.base _ trace results after hget⟩

end IdlScope

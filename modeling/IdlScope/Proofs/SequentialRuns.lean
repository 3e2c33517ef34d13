import IdlScope.Proofs.Calls

/-!
# Sequential runs — what a single thread makes of builds on a cache

On a single thread a task runs by itself to its end, and the roots of a batch are built one after
the other. What a run does on its library of scopes is what such builds do on a cache:

* **`Task.Safe.exists_run`** — a task that is safe comes to its end when it runs by itself.
* **`Task.Follows`**, **`follows_job`** — a build by itself on a cache comes to what it comes to on
  the library of the cache.
* **`Run.exists_builds`**, **`Run.exists_calls`** — what a run builds, and all that it is asked for,
  a cache answers as well.
-/

namespace IdlScope

/-! ## Tasks by themselves -/

theorem Ran.events_behind {α : Type} (events : List Event) (r : Ran α) :
    (r.behind events).events = events ++ r.events := rfl

theorem Ran.cache_behind {α : Type} (events : List Event) (r : Ran α) :
    (r.behind events).cache = r.cache := rfl

namespace Task

variable {α β : Type}

theorem run_bind (t : Task α) (f : α → Task β) (cache : Cache) :
    (t.bind f).run cache = (t.run cache).bind fun r =>
      ((f r.result).run r.cache).map (·.behind r.events) := by
  induction t generalizing cache with
  | done a => simp [bind, run, Ran.behind]
  | look file next ih => exact ih _ cache
  | number file next ih | store s next ih =>
      simp [bind, run, ih, Option.map_bind, Option.bind_map, Function.comp_def, Ran.behind]
  | report errors next ih =>
      simp only [bind, run, ih]
      cases errors.head? <;> rfl

/-- A safe task comes to its end. -/
theorem Safe.exists_run {I : Cache → Prop} {Q : α → List Event → Cache → Prop} {t : Task α}
    {past : List Event} {cache : Cache} (h : t.Safe .first I Q past cache) (hI : I cache) :
    ∃ r, t.run cache = some r ∧ I r.cache ∧ Q r.result (past ++ r.events) r.cache := by
  induction t generalizing past cache with
  | done a => exact ⟨⟨a, [], cache⟩, rfl, hI, (List.append_nil past).symm ▸ h⟩
  | look file next ih => exact ih _ (h cache (le_refl cache) hI) hI
  | number file next ih | store s next ih =>
      obtain ⟨hI', h⟩ := h cache (le_refl cache) hI
      obtain ⟨r, hrun, hafter, hQ⟩ := ih _ h hI'
      refine ⟨r.behind _, by rw [Task.run, hrun, Option.map_some], hafter, ?_⟩
      rwa [List.append_assoc] at hQ
  | report errors next ih =>
      obtain ⟨hne, h⟩ := h
      have hfirst := List.head?_eq_some_head hne
      obtain ⟨r, hrun, hafter, hQ⟩ := ih _ (h _ hfirst) hI
      refine ⟨r, ?_, hafter, hQ⟩
      rw [Task.run, hfirst]
      exact hrun

/-- The scopes in the cache are those that were stored, in order. -/
theorem stored_of_run {t : Task α} {cache : Cache} {r : Ran α} (h : t.run cache = some r) :
    r.cache.stored = cache.stored ++ r.events.filterMap Event.stored? := by
  induction t generalizing cache r with
  | done a =>
      cases h
      simp
  | look file next ih => exact ih _ h
  | number file next ih =>
      obtain ⟨r, hrun, rfl⟩ := Option.map_eq_some_iff.mp h
      rw [Ran.cache_behind, Ran.events_behind, List.filterMap_append, ← List.append_assoc,
        ← (Step.number (c := .first) file next cache).stored]
      exact ih _ hrun
  | store s next ih =>
      obtain ⟨r, hrun, rfl⟩ := Option.map_eq_some_iff.mp h
      rw [Ran.cache_behind, Ran.events_behind, List.filterMap_append, ← List.append_assoc]
      cases hs : cache.scopes.lookup s.file with
      | none =>
          rw [if_pos rfl, ← (Step.store (c := .first) s next cache hs).stored]
          exact ih _ hrun
      | some existing =>
          rw [if_neg (Option.some_ne_none existing),
            ← (Step.keep (c := .first) s existing next cache hs).stored]
          exact ih _ hrun
  | report errors next ih =>
      obtain ⟨e, -, hrun⟩ := Option.bind_eq_some_iff.mp h
      exact ih e hrun

end Task

/-- A task of a batch whose turn it is can be run by itself. -/
theorem Batch.runs_of_run {o : Options} {before rest : List (Task (Except BuildError SharedScope))}
    (hbefore : ∀ t ∈ before, t.isDone = true) {t : Task (Except BuildError SharedScope)}
    {cache : Cache} {r : Ran (Except BuildError SharedScope)} (h : t.run cache = some r) :
    Runs o .first ⟨cache, before ++ t :: rest⟩ (r.events.map (before.length, ·))
      ⟨r.cache, before ++ .done r.result :: rest⟩ := by
  have hfirst {t t' : Task (Except BuildError SharedScope)} {cache cache' : Cache}
      {events : List Event} (hs : t.Step .first cache events t' cache') :
      Runs o .first ⟨cache, before ++ t :: rest⟩ (events.map (before.length, ·))
        ⟨cache', before ++ t' :: rest⟩ :=
    Runs.same.step (.mk (.inr hbefore) hs)
  induction t generalizing cache r with
  | done r' =>
      cases h
      exact .same
  | look file next ih => exact (hfirst (.look file next cache)).trans (ih _ h)
  | number file next ih =>
      obtain ⟨r, hrun, rfl⟩ := Option.map_eq_some_iff.mp h
      exact (hfirst (.number file next cache)).trans (ih _ hrun)
  | store s next ih =>
      obtain ⟨r, hrun, rfl⟩ := Option.map_eq_some_iff.mp h
      rw [Ran.behind, List.map_append]
      cases hs : cache.scopes.lookup s.file with
      | none => exact (hfirst (.store s next cache hs)).trans (ih _ hrun)
      | some existing => exact (hfirst (.keep s existing next cache hs)).trans (ih _ hrun)
  | report errors next ih =>
      obtain ⟨e, he, hrun⟩ := Option.bind_eq_some_iff.mp h
      exact (hfirst (.report errors next cache e he)).trans (ih e hrun)

/-! ## Builds by themselves -/

/-- Running the task comes to what the build comes to, on the cache and on its library. -/
def Task.Follows {α β : Type} (t : Task (Except BuildError α)) (cache : Cache) (x : Build β)
    (f : α → β) : Prop :=
  ∀ r, t.run cache = some r → x.run.run cache.library = (r.result.map f, r.cache.library)

section Builds

variable {o : Options}

theorem Cache.library_fileId (cache : Cache) (file : String) :
    (cache.fileId file).2.library = cache.library.meet file := by
  rw [library, cache.files_fileId, stored, cache.scopes_fileId, listed, Library.meet, library,
    stored]
  split <;> rfl

theorem Cache.library_insert {cache : Cache} {s : SharedScope}
    (h : cache.scopes.lookup s.file = none) :
    (cache.insert s).2.library = cache.library.add s.scope := by
  rw [insert_of_none h]
  simp [library, files, stored, Library.add]

/-- A build by itself comes to its end and keeps its promise. -/
theorem exists_run_job (t : Tree) {waiting : List String}
    (hw : Tree.Above (fun _ => True) waiting t) {cache : Cache} (hcache : cache.InOrder o) :
    ∃ r, (t.job o waiting).run.run cache = some r ∧ r.cache.InOrder o ∧
      t.Promise o .first False waiting cache [] r.result r.events r.cache := by
  obtain ⟨r, hr, horder, hpromise⟩ := (safe_job Tree.family_none Tree.agrees_none t trivial waiting
    hw [] cache).exists_run hcache.agreed
  exact ⟨r, hr, horder.inOrder, hpromise⟩

theorem run_job_inOrder {t : Tree} {waiting : List String}
    (hw : Tree.Above (fun _ => True) waiting t) {cache : Cache} (hcache : cache.InOrder o)
    {r : Ran (Except BuildError SharedScope)} (hr : (t.job o waiting).run.run cache = some r) :
    r.cache.InOrder o := by
  obtain ⟨r', hr', horder, -⟩ := exists_run_job t hw hcache
  rw [hr] at hr'
  exact Option.some.inj hr' ▸ horder

theorem follows_jobOfIncludes (d : Document) (waiting : List String) (is : List (Included Tree))
    (hw : ∀ i ∈ is, Tree.Above (fun _ => True) waiting i.content)
    (hbuild : ∀ i ∈ is, ∀ cache : Cache, cache.InOrder o →
      (i.content.job o waiting).run.Follows cache (buildTree o waiting i.content) (·.scope))
    (k : Linked) (cache : Cache) (hcache : cache.InOrder o) :
    (jobOfIncludes o d waiting is k).run.Follows cache (buildIncludes o d waiting is k.linkage)
      (·.linkage) := by
  induction is generalizing k cache with
  | nil =>
      intro r hr
      cases hr
      rfl
  | cons i is ih =>
      obtain ⟨path, used, t⟩ := i
      have hrest := ih (fun j hj => hw j (List.mem_cons_of_mem _ hj))
        fun j hj => hbuild j (List.mem_cons_of_mem _ hj)
      intro r hr
      rw [run_jobOfIncludes_cons] at hr
      rw [run_buildIncludes_cons]
      cases used with
      | false => exact hrest k.skip cache hcache r hr
      | true =>
          rw [if_pos rfl, Task.run_bind] at hr
          obtain ⟨first, hfirst, hr⟩ := Option.bind_eq_some_iff.mp hr
          have horder := run_job_inOrder (hw _ List.mem_cons_self) hcache hfirst
          rw [if_pos rfl, hbuild _ List.mem_cons_self cache hcache first hfirst]
          obtain ⟨last, hlast, rfl⟩ := Option.map_eq_some_iff.mp hr
          cases hresult : first.result with
          | error e =>
              rw [hresult] at hlast
              cases hlast
              rfl
          | ok s =>
              rw [hresult] at hlast
              exact hrest _ _ horder last hlast

/-- Finishing a file on a cache comes to what it comes to on the library of the cache. -/
theorem run_finishJob_eq {d : Document} {file : FileId} {k : Linked} {cache : Cache}
    (hcache : cache.InOrder o) (hfiled : cache.paths.get? d.filename = some file)
    (hfree : cache.get? d.filename = none) (hstored : ∀ s ∈ k.holds, s ∈ cache.stored)
    (hcovered : k.linkage.Covered (SharedScope.library k.holds))
    {r : Ran (Except BuildError SharedScope)} (hr : (d.finishJob o file k).run.run cache = some r) :
    (match d.scope o cache.library k.linkage with
      | .error e => (.error e, cache.library)
      | .ok s => (.ok s, cache.library.add s)) = (r.result.map (·.scope), r.cache.library) := by
  rw [Document.scope_eq (hcache.closed_library hstored) hcovered (hcache.library_le hstored)]
  rw [run_finishJob] at hr
  cases hscope : d.scope o (SharedScope.library k.holds) k.linkage with
  | error e =>
      obtain ⟨more, hmore⟩ := Document.outcome_of_error hscope
      rw [hmore] at hr
      cases hr
      rfl
  | ok s =>
      rw [Document.outcome_of_ok hscope] at hr
      have hname : (SharedScope.share file s k.holds).filename = d.filename :=
        Document.filename_of_scope hscope
      have hlookup : cache.scopes.lookup (SharedScope.share file s k.holds).file = none := by
        rw [Cache.get?, hfiled] at hfree
        exact hfree
      obtain ⟨done, hdone, rfl⟩ := Option.map_eq_some_iff.mp hr
      cases hdone
      refine Prod.ext ?_ (Cache.library_insert hlookup).symm
      rw [Cache.insert_of_none hlookup]
      rfl

/-- Where the builds below a file have stored scopes of their own files only, the file still has no
scope. -/
theorem get?_eq_none_of_below {d : Document} {waiting : List String} {is : List (Included Tree)}
    {cache after : Cache} (hcache : cache.InOrder o) (hfree : cache.get? d.filename = none)
    (hafter : after.InOrder o) {events : List Event}
    (hstored : after.stored = cache.stored ++ events.filterMap Event.stored?)
    (hbelow : ∀ s, .stored s ∈ events → .stored s ∈ ([] : List Event) ∨
      MayAddBelow o (waiting ++ [d.filename]) is s) : after.get? d.filename = none := by
  refine hafter.get?_eq_none_iff.mpr fun s hs => ?_
  rw [hstored] at hs
  rcases List.mem_append.mp hs with hs | hs
  · exact hcache.get?_eq_none_iff.mp hfree s hs
  · obtain ⟨e, he, hse⟩ := List.mem_filterMap.mp hs
    cases e with
    | met file => cases hse
    | stored u =>
        cases hse
        obtain ⟨i, -, -, u, -, hnew, hwhole⟩ := (hbelow s he).resolve_left List.not_mem_nil
        rw [hwhole.filename]
        exact fun heq => hnew (List.mem_append_right _ (List.mem_singleton.mpr heq))

/-- What building includes by itself has promised at its end. -/
theorem promise_of_run_jobOfIncludes {d : Document} {waiting : List String}
    {is : List (Included Tree)} (hw : ∀ i ∈ is, Tree.Above (fun _ => True) waiting i.content)
    {k : Linked} {cache : Cache} (hcache : cache.InOrder o) (hk : ∀ s ∈ k.holds, s ∈ cache.stored)
    {r : Ran (Except BuildError Linked)}
    (hr : (jobOfIncludes o d waiting is k).run.run cache = some r) :
    Linked.Promise o .first False d waiting is k [] r.result r.events r.cache ∧
      cache ≤ r.cache ∧ r.cache.InOrder o := by
  have hsafe := safe_jobOfIncludes (c := .first) (P := False) d waiting is
    (fun i hi _ past cache _ => safe_job Tree.family_none Tree.agrees_none i.content trivial _
      (hw i hi) past cache) k [] cache hcache.agreed hk
  obtain ⟨r', hr', -, hpromise, hle, hagreed⟩ :=
    (hsafe.bounded (le_refl _) hcache.agreed).exists_run hcache.agreed
  rw [hr] at hr'
  obtain rfl := Option.some.inj hr'
  exact ⟨hpromise, hle, hagreed.inOrder⟩

/-- A build on a cache by itself comes to what it comes to on the library of the cache. -/
theorem follows_job (t : Tree) (waiting : List String)
    (hw : Tree.Above (fun _ => True) waiting t) (cache : Cache) (hcache : cache.InOrder o) :
    (t.job o waiting).run.Follows cache (buildTree o waiting t) (·.scope) := by
  induction t using Tree.induct generalizing waiting cache with
  | step d is ih =>
      intro r hr
      rw [run_job, Task.run] at hr
      rw [run_buildTree, hcache.scope?_library]
      cases hget : cache.get? d.filename with
      | some s =>
          rw [hget] at hr
          cases hr
          rfl
      | none =>
          rw [hget] at hr
          dsimp only [Option.map_none] at hr ⊢
          split at hr
          case isTrue hwaits =>
            rw [if_pos hwaits]
            cases hr
            rfl
          case isFalse hnew =>
            rw [if_neg hnew, ← Cache.library_fileId]
            rw [Task.run] at hr
            obtain ⟨built, hbuilt, rfl⟩ := Option.map_eq_some_iff.mp hr
            have horder := hcache.fileId d.filename
            cases hcheck : d.check o with
            | error e =>
                rw [hcheck] at hbuilt
                cases hbuilt
                rfl
            | ok _ =>
                rw [hcheck, Task.run_bind] at hbuilt
                obtain ⟨inner, hinner, hrest⟩ := Option.bind_eq_some_iff.mp hbuilt
                obtain ⟨last, hlast, rfl⟩ := Option.map_eq_some_iff.mp hrest
                have habove : ∀ i ∈ is, Tree.Above (fun _ => True) (waiting ++ [d.filename])
                    i.content := fun i hi => hw.content trivial hi
                have hfollows := follows_jobOfIncludes d (waiting ++ [d.filename]) is habove
                  (fun i hi cache hcache => ih i hi _ (habove i hi) cache hcache)
                  ⟨o.unlinked d, []⟩ _ horder inner hinner
                dsimp only at hfollows ⊢
                rw [hfollows]
                -- what building the includes has promised is what finishing the file needs
                obtain ⟨hpromise, hle, hinOrder⟩ :=
                  promise_of_run_jobOfIncludes (k := ⟨o.unlinked d, []⟩) habove horder nofun hinner
                cases hresult : inner.result with
                | error e =>
                    rw [hresult] at hlast
                    cases hlast
                    rfl
                | ok k =>
                    rw [hresult] at hlast
                    have hlinks := (hpromise.joins k hresult).links fun u hu =>
                      hinOrder.scope?_of_mem (hpromise.stored k hresult)
                        (SharedScope.mem_allOf_of_mem hu)
                    have hstored : inner.cache.stored =
                        cache.stored ++ inner.events.filterMap Event.stored? := by
                      rw [Task.stored_of_run hinner, Cache.stored, cache.scopes_fileId,
                        Cache.stored]
                    have hfree : inner.cache.get? d.filename = none :=
                      get?_eq_none_of_below hcache hget hinOrder hstored hpromise.adds
                    have hfinish := run_finishJob_eq hinOrder
                      (Cache.get?_paths_mono hle (cache.get?_fileId d.filename)) hfree
                      (hpromise.stored k hresult) (hlinks.covered (covered_unlinked o d _)) hlast
                    exact hfinish

end Builds

/-! ## Runs on a single thread -/

section Runs

variable {o : Options}

/-- A run builds a root as the root is built on a cache with the library of the run. -/
theorem Run.exists_run_build {r : Run} (hoptions : r.options = o) {cache : Cache}
    (hcache : cache.InOrder o) (hlibrary : r.library = cache.library) (t : Tree) :
    ∃ ran, (t.job o []).run.run cache = some ran ∧ ran.cache.InOrder o ∧
      r.build t = (ran.result.map (·.scope), { r with library := ran.cache.library }) := by
  obtain ⟨ran, hran, horder, -⟩ := exists_run_job t (Tree.above_nil _ t) hcache
  refine ⟨ran, hran, horder, ?_⟩
  rw [build, hlibrary, hoptions, Library.build,
    follows_job t [] (Tree.above_nil _ t) cache hcache ran hran]

/-- Behind roots that are done, the roots of a run are built one after the other. -/
theorem Run.runs_buildAll {r : Run} (hoptions : r.options = o) {cache : Cache}
    (hcache : cache.InOrder o) (hlibrary : r.library = cache.library) (roots : List Tree)
    (done : List (Except BuildError SharedScope)) :
    ∃ trace results after, Batch.Runs o .first
        ⟨cache, done.map .done ++ roots.map fun t => (t.job o []).run⟩ trace
        ⟨after, (done ++ results).map .done⟩ ∧ after.InOrder o ∧
      r.buildAll roots = (List.zipWith (fun t x => (t.filename, x.map (·.scope))) roots results,
        { r with library := after.library }) := by
  induction roots generalizing r cache done with
  | nil =>
      refine ⟨[], [], cache, ?_, hcache, by rw [← hlibrary]; rfl⟩
      rw [List.map_nil, List.append_nil, List.append_nil]
      exact .same
  | cons t ts ih =>
      obtain ⟨ran, hran, horder, hbuild⟩ := exists_run_build hoptions hcache hlibrary t
      obtain ⟨trace, results, after, hruns, hafter, hall⟩ :=
        ih (r := { r with library := ran.cache.library }) hoptions horder rfl (done ++ [ran.result])
      have hdone : ∀ u ∈ done.map (Task.done (α := Except BuildError SharedScope)),
          u.isDone = true := by
        intro u hu
        obtain ⟨x, -, rfl⟩ := List.mem_map.mp hu
        rfl
      rw [List.map_append, List.append_assoc] at hruns
      refine ⟨_, ran.result :: results, after,
        (Batch.runs_of_run hdone hran).trans (by simpa using hruns), hafter, ?_⟩
      rw [buildAll, hbuild]
      dsimp only
      rw [hall]
      rfl

/-- **A run on a single thread** builds roots as a batch may build them. -/
theorem Run.exists_builds {r : Run} (hoptions : r.options = o) {cache : Cache}
    (hcache : cache.InOrder o) (hlibrary : r.library = cache.library) (roots : List Tree) :
    ∃ trace results after, cache.Builds o .first roots trace results after ∧ after.InOrder o ∧
      r.buildAll roots = (List.zipWith (fun t x => (t.filename, x.map (·.scope))) roots results,
        { r with library := after.library }) :=
  runs_buildAll hoptions hcache hlibrary roots []

/-- What a run has been asked for are calls, and its library is the one of the cache. -/
theorem Run.exists_calls (o : Options) (requests : List Request) :
    ∃ events cache, Cache.empty.Calls o .first (requests.map .request) events cache ∧
      ((new o).serveAll requests).library = cache.library := by
  induction requests using List.reverseRecOn with
  | nil => exact ⟨[], .empty, .none, rfl⟩
  | append_singleton requests q ih =>
      obtain ⟨events, cache, hcalls, hlibrary⟩ := ih
      have hcache : cache.InOrder o := (hcalls.agreed Tree.family_none Tree.agrees_none
        (fun _ _ => trivial) (Cache.InOrder.empty o).agreed).inOrder
      have hoptions : ((new o).serveAll requests).options = o :=
        (library_serveAll (new o) requests).2
      obtain ⟨trace, results, after, hbuilds, -, hall⟩ :=
        exists_builds hoptions hcache hlibrary q.trees
      refine ⟨events ++ trace.map Prod.snd, after, ?_, ?_⟩
      · rw [List.map_append]
        exact .request q hcalls hbuilds
      · rw [serveAll, List.foldl_append, List.foldl_cons, List.foldl_nil, ← serveAll,
          (library_serve _ q).1]
        have hsnd := congrArg (fun p => p.2.library) hall
        rw [buildAll_snd] at hsnd
        exact hsnd

end Runs

end IdlScope

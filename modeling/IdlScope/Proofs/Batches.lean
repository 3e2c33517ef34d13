import IdlScope.Proofs.SequentialRuns

/-!
# Batches — a root comes to the same in a batch and alone

Where a file name stands for one tree, what a root of a batch comes to is told by its tree
(`Tree.lone`), so it does not matter what else is built, what was built before, or in which order
the builds take their steps.

* **`SharedScope.exists_renumber`** — scopes that are the same without numbers are the same under
  other numbers.
* **`Cache.Builds.yields`** — each root of a batch comes to what its tree may come to by itself.
* **`Tree.Yields.exists_alone`** — whatever a tree may come to, building it alone may come to.
* **`batch_eq_alone`** — both together.
-/

namespace IdlScope

/-! ## Other numbers -/

/-- The one shared scope is the other one under other numbers: each number becomes another one, and
different numbers different ones. -/
def SharedScope.RenumbersTo (s u : SharedScope) : Prop :=
  ∃ ρ : FileId → FileId, (∀ v ∈ s.all, ∀ w ∈ s.all, ρ v.file = ρ w.file → v.file = w.file) ∧
    s.renumber ρ = u

/-- The results are the same: the same error, or the same scope under other numbers. -/
inductive SameResult : Except BuildError SharedScope → Except BuildError SharedScope → Prop
  | ok {s u : SharedScope} (h : s.RenumbersTo u) : SameResult (.ok s) (.ok u)
  | error (e : BuildError) : SameResult (.error e) (.error e)

namespace SharedScope

theorem eq_mk (s : SharedScope) : s = mk s.file s.scope s.holds := by
  cases s
  rfl

theorem all_renumber (ρ : FileId → FileId) (s : SharedScope) :
    (s.renumber ρ).all = s.all.map (renumber ρ) := by
  have h := allOf_map_renumber ρ [s]
  simpa [allOf] using h

/-- Scopes that are the same without numbers are the same under the numbers of their files. -/
theorem renumber_eq_of_erase_eq {ρ : FileId → FileId} (number : String → FileId)
    {s u : SharedScope} (herase : s.erase = u.erase)
    (hs : ∀ v ∈ s.all, ρ v.file = number v.filename)
    (hu : ∀ v ∈ u.all, v.file = number v.filename) : s.renumber ρ = u := by
  induction s using SharedScope.induct generalizing u with
  | step file scope holds ih =>
      have hfile : ρ file = number (mk file scope holds).filename := hs _ (mem_all_self _)
      have hfile' := hu u u.mem_all_self
      obtain ⟨file', scope', holds'⟩ := u
      rw [erase, erase, renumber_eq, renumber_eq] at herase
      obtain ⟨-, hscope, hholds⟩ := SharedScope.mk.inj herase
      obtain rfl : scope = scope' := hscope
      have hmatched : List.Forall₂ (fun v w => erase v = erase w) holds holds' :=
        List.forall₂_map_right_iff.mp (List.forall₂_map_left_iff.mp
          (List.forall₂_eq_eq_eq ▸ hholds))
      have hsame : List.Forall₂ (fun v w => renumber ρ v = w) holds holds' := by
        refine (forall₂_with_mem hmatched).imp fun v w h => ?_
        obtain ⟨hv, hw, hvw⟩ := h
        refine ih v hv hvw (fun x hx => hs x ?_) (fun x hx => hu x ?_)
        · exact List.mem_cons_of_mem _ (mem_allOf.mpr ⟨v, hv, hx⟩)
        · exact List.mem_cons_of_mem _ (mem_allOf.mpr ⟨w, hw, hx⟩)
      have hrenumbered : holds.map (renumber ρ) = holds' :=
        List.forall₂_eq_eq_eq ▸ List.forall₂_map_left_iff.mpr hsame
      rw [renumber_eq, ← hrenumbered]
      exact congrArg (mk · scope _) (hfile.trans hfile'.symm)

end SharedScope

/-- What two caches keep, and is the same without numbers, is the same under other numbers. -/
theorem Cache.InOrder.renumbersTo {o : Options} {c c' : Cache} (h : c.InOrder o)
    (h' : c'.InOrder o) {s u : SharedScope} (hs : s ∈ c.stored) (hu : u ∈ c'.stored)
    (herase : s.erase = u.erase) : s.RenumbersTo u := by
  -- a number is read back as its file, which has another number in the other cache
  let ρ : FileId → FileId := fun id => ((c.files[id.index]?).bind (c'.paths.get? ·)).getD ⟨0⟩
  have hfiles : ∀ v ∈ s.all, c.files[v.file.index]? = some v.filename := fun v hv =>
    h.numbered.get?_eq_some_iff.mp (h.filed v (h.all_subset hs v hv))
  have hrenumber : s.renumber ρ = u := by
    refine SharedScope.renumber_eq_of_erase_eq (fun file => (c'.paths.get? file).getD ⟨0⟩) herase
      (fun v hv => ?_) fun v hv => ?_
    · have hρ : ρ v.file = ((c.files[v.file.index]?).bind (c'.paths.get? ·)).getD ⟨0⟩ := rfl
      rw [hρ, hfiles v hv, Option.bind_some]
    · rw [h'.filed v (h'.all_subset hu v hv), Option.getD_some]
  refine ⟨ρ, fun v hv w hw hvw => ?_, hrenumber⟩
  have hnumber : ∀ v ∈ s.all, c'.paths.get? v.filename = some (ρ v.file) := by
    intro v hv
    have hmem : v.renumber ρ ∈ u.all := by
      rw [← hrenumber, SharedScope.all_renumber]
      exact List.mem_map_of_mem hv
    have hfiled := h'.filed _ (h'.all_subset hu _ hmem)
    rwa [SharedScope.filename_renumber, SharedScope.renumber_eq] at hfiled
  have hname := h'.numbered.inj (hnumber v hv) (hvw ▸ hnumber w hw)
  rw [h.eq_of_filename (h.all_subset hs v hv) (h.all_subset hs w hw) hname]

/-- Results that are the same have the same scope. -/
theorem SameResult.map_scope {r r' : Except BuildError SharedScope} (h : SameResult r r') :
    r.map (·.scope) = r'.map (·.scope) := by
  obtain ⟨ρ, -, rfl⟩ | e := h
  · exact congrArg Except.ok (SharedScope.scope_renumber ρ _).symm
  · rfl

/-! ## What a tree may come to -/

/-- On a single thread the first error is reported, always. -/
theorem Collector.steady_first : first.Steady :=
  fun _ _ _ h h' => Option.some.inj (h.symm.trans h')

/-- The same collector, except that it reports the given cause of the given errors. -/
def Collector.choose (c : Collector) {errors : List BuildError} {cause : BuildError}
    (h : c.reports errors cause) : Collector where
  reports es e := c.reports es e ∧ (es = errors → e = cause)
  mem es e he := c.mem es e he.1
  total es hes := by
    by_cases hsame : es = errors
    · exact ⟨cause, hsame ▸ h, fun _ => rfl⟩
    · obtain ⟨e, he⟩ := c.total es hes
      exact ⟨e, he, fun h => absurd h hsame⟩

section Collectors

variable {o : Options} {c c' : Collector} (hle : ∀ es e, c'.reports es e → c.reports es e)
include hle

theorem Task.Step.mono {α : Type} {t t' : Task α} {cache cache' : Cache} {events : List Event}
    (h : t.Step c' cache events t' cache') : t.Step c cache events t' cache' := by
  cases h with
  | look => exact .look _ _ _
  | number => exact .number _ _ _
  | store _ _ _ hs => exact .store _ _ _ hs
  | keep _ _ _ _ hs => exact .keep _ _ _ _ hs
  | report _ _ _ _ he => exact .report _ _ _ _ (hle _ _ he)

/-- What happens under a collector may happen under one that may report more. -/
theorem Batch.Runs.mono {b m : Batch} {trace : List (Nat × Event)} (h : b.Runs o c' trace m) :
    b.Runs o c trace m := by
  induction h with
  | same => exact .same
  | step _ hs ih =>
      obtain ⟨turn, hs⟩ := hs
      exact ih.step (.mk turn (hs.mono hle))

end Collectors

theorem Tree.family_among {roots : List Tree} (h : ∀ t u : Tree, t.Among roots → u.Among roots →
    t.filename = u.filename → t = u) : Family (Among roots) :=
  ⟨fun _ ht _ hi => ht.includes hi, h⟩

theorem Tree.Family.agrees {F : Tree → Prop} (h : Family F) : Agrees F F :=
  ⟨fun t ht i hi _ => h.includes t ht i hi, h.unique⟩

theorem Cache.Agreed.empty (o : Options) (F : Tree → Prop) : Cache.empty.Agreed o F :=
  ⟨.empty o, nofun⟩

/-- Results that a tree may come to are the same if they do not tell different errors. -/
theorem Tree.Yields.sameResult {o : Options} {c : Collector} {t : Tree}
    {r r' : Except BuildError SharedScope} (hr : t.Yields o c r) (hr' : t.Yields o c r')
    {after after' : Cache} (horder : after.InOrder o) (horder' : after'.InOrder o)
    (hfound : ∀ s, r = .ok s → after.get? t.filename = some s)
    (hfound' : ∀ s, r' = .ok s → after'.get? t.filename = some s)
    (herror : ∀ e e', r = .error e → r' = .error e' → e = e') : SameResult r r' := by
  cases r with
  | ok s =>
      have hs : t.lone o = .ok s.erase := hr
      cases r' with
      | ok u =>
          have hu : t.lone o = .ok u.erase := hr'
          refine .ok (horder.renumbersTo horder' (horder.get?_eq_some_iff.mp (hfound s rfl)).1
            (horder'.get?_eq_some_iff.mp (hfound' u rfl)).1 ?_)
          exact Except.ok.inj (hs.symm.trans hu)
      | error e =>
          obtain ⟨f, hf, -⟩ := hr'
          cases hs.symm.trans hf
  | error e =>
      obtain ⟨f, hf, -⟩ := hr
      cases r' with
      | ok u =>
          have hu : t.lone o = .ok u.erase := hr'
          cases hf.symm.trans hu
      | error e' =>
          obtain rfl := herror e e' rfl rfl
          exact .error e

/-- Errors that a tree may come to are those of one failure. -/
theorem Tree.Yields.exists_failure {o : Options} {c : Collector} {t : Tree} {e e' : BuildError}
    (h : t.Yields o c (.error e)) (h' : t.Yields o c (.error e')) :
    ∃ f : Failure, f.Tells c e ∧ f.Tells c e' := by
  obtain ⟨f, hf, he⟩ := h
  obtain ⟨f', hf', he'⟩ := h'
  obtain rfl := Except.error.inj (hf.symm.trans hf')
  exact ⟨f, he, he'⟩

/-- A steady collector has one error for a failure. -/
theorem Failure.Tells.unique {c : Collector} (hc : c.Steady) {f : Failure} {e e' : BuildError}
    (h : f.Tells c e) (h' : f.Tells c e') : e = e' := by
  obtain ⟨cause, hcause, rfl⟩ := h
  obtain ⟨cause', hcause', rfl⟩ := h'
  rw [hc _ _ _ hcause hcause']

section Results

variable {o : Options} {c : Collector} {F G : Tree → Prop} (hF : Tree.Family F)
  (hG : Tree.Agrees F G) {cache : Cache} (hcache : cache.Agreed o F) {roots : List Tree}
  (hroots : ∀ t ∈ roots, G t)
include hF hG hcache hroots

/-- Whatever error a tree may come to by itself, it may come to in a batch. -/
theorem exists_builds_of_yields {n : Nat} {t : Tree} (hn : roots[n]? = some t) (ht : F t)
    {r : Except BuildError SharedScope} (hr : t.Yields o c r) :
    ∃ trace results after r', cache.Builds o c roots trace results after ∧
      results[n]? = some r' ∧ ∀ e e', r = .error e → r' = .error e' → e = e' := by
  -- the batch is run under a collector that reports the error that is asked for
  obtain ⟨c', hle, herror⟩ : ∃ c' : Collector, (∀ es e, c'.reports es e → c.reports es e) ∧
      ∀ r', t.Yields o c' r' → ∀ e e', r = .error e → r' = .error e' → e = e' := by
    cases r with
    | ok s => exact ⟨c, fun _ _ h => h, nofun⟩
    | error e =>
        obtain ⟨f, hf, cause, hcause, rfl⟩ := hr
        refine ⟨c.choose hcause, fun _ _ h => h.1, ?_⟩
        rintro _ hr' _ e' ⟨⟩ rfl
        obtain ⟨f', hf', cause', ⟨-, hsame⟩, rfl⟩ := hr'
        obtain rfl := Except.error.inj (hf.symm.trans hf')
        rw [hsame rfl]
  obtain ⟨trace, results, after, hbuilds⟩ :=
    Cache.Agreed.exists_builds (c := c') hF hG hroots hcache
  have hn' : n < results.length := by
    rw [hbuilds.length_results]
    exact (List.getElem?_eq_some_iff.mp hn).1
  have hresult := List.getElem?_eq_getElem hn'
  have hpromise := hbuilds.promise hF hG hroots hcache hn hresult
  exact ⟨trace, results, after, _, Batch.Runs.mono hle hbuilds, hresult,
    herror _ (hpromise.yields ht)⟩

end Results

/-! ## Batches -/

/-- The result is one that building the tree alone may have. -/
def Tree.Alone (o : Options) (c : Collector) (t : Tree) (r : Except BuildError SharedScope) :
    Prop :=
  ∃ trace after, Cache.empty.Builds o c [t] trace [r] after

/-- Running the build of a tree on a single thread is building it alone. -/
theorem Tree.Alone.of_run {o : Options} {t : Tree} {r : Ran (Except BuildError SharedScope)}
    (h : (t.job o []).run.run .empty = some r) : t.Alone o .first r.result :=
  ⟨_, r.cache, Batch.runs_of_run (List.forall_mem_nil _) h⟩

/-- A lone build keeps its promise. -/
theorem Tree.Alone.exists_promise {o : Options} {c : Collector} {F : Tree → Prop}
    (hF : Tree.Family F) {t : Tree} (ht : F t) {r : Except BuildError SharedScope}
    (h : t.Alone o c r) :
    ∃ after : Cache, after.InOrder o ∧ (∀ s, r = .ok s → after.get? t.filename = some s) ∧
      t.Yields o c r := by
  obtain ⟨trace, after, hbuilds⟩ := h
  have hroots : ∀ u ∈ [t], F u := fun u hu => List.mem_singleton.mp hu ▸ ht
  have hempty := Cache.Agreed.empty o F
  have hpromise := hbuilds.promise hF hF.agrees hroots hempty (n := 0) (t := t) rfl rfl
  exact ⟨after, (hbuilds.agreed hF hF.agrees hroots hempty).inOrder, hpromise.found,
    hpromise.yields ht⟩

/-- The trees of calls and of roots agree with the ones of the roots. -/
theorem Tree.agrees_among {earlier roots : List Tree}
    (hroots : ∀ t u : Tree, t.Among roots → u.Among roots → t.filename = u.filename → t = u)
    (hearlier : ∀ t u : Tree, t.Among earlier → u.Among roots → t.filename = u.filename → t = u) :
    Agrees (Among roots) fun t => t.Among earlier ∨ t.Among roots where
  includes _ ht _ hi _ := ht.imp (·.includes hi) (·.includes hi)
  same t u ht hu hname := ht.elim (hearlier t u · hu hname) (hroots t u · hu hname)

/-- A run on a single thread gives every root what a single thread gives it alone. -/
theorem Run.buildAll_fst {o : Options} {roots : List Tree}
    (hroots : ∀ t u : Tree, t.Among roots → u.Among roots → t.filename = u.filename → t = u)
    {cache : Cache} (hcache : cache.Agreed o (Tree.Among roots)) {run : Run}
    (hoptions : run.options = o) (hlibrary : run.library = cache.library) :
    (run.buildAll roots).1 = roots.map fun t => (t.filename, ((Run.new o).build t).1) := by
  have hF := Tree.family_among hroots
  have hamong : ∀ t ∈ roots, t.Among roots := fun t ht => ⟨t, ht, .root t⟩
  obtain ⟨trace, results, after, hbuilds, -, hall⟩ :=
    exists_builds hoptions hcache.inOrder hlibrary roots
  rw [hall]
  refine List.ext_getElem? fun n => ?_
  rw [List.getElem?_zipWith, List.getElem?_map]
  cases hn : roots[n]? with
  | none => rfl
  | some t =>
      have ht := hamong t (List.mem_of_getElem? hn)
      have hn' : n < results.length := by
        rw [hbuilds.length_results]
        exact (List.getElem?_eq_some_iff.mp hn).1
      have hresult := List.getElem?_eq_getElem hn'
      have hpromise := hbuilds.promise hF hF.agrees hamong hcache hn hresult
      obtain ⟨ran, hran, -, hbuild⟩ :=
        exists_run_build (r := .new o) rfl (Cache.InOrder.empty o) rfl t
      have halone : t.Alone o .first ran.result := .of_run hran
      obtain ⟨after', horder', hfound', hyields'⟩ := halone.exists_promise hF ht
      have hyields := hpromise.yields ht
      have hsame := hyields'.sameResult hyields horder'
        (hbuilds.agreed hF hF.agrees hamong hcache).inOrder hfound' hpromise.found <| by
          rintro e e' he he'
          rw [he] at hyields'
          rw [he'] at hyields
          obtain ⟨f, hf, hf'⟩ := hyields'.exists_failure hyields
          exact hf.unique Collector.steady_first hf'
      rw [hresult, Option.map_some, hbuild]
      exact congrArg (fun r => some (t.filename, r)) hsame.map_scope.symm

/-- A lone run on a single thread is one that any collector allows. -/
theorem Run.exists_alone (o : Options) (t : Tree) :
    ∃ r, t.Alone o .any r ∧ r.map (·.scope) = ((new o).build t).1 := by
  obtain ⟨ran, hran, -, hbuild⟩ :=
    exists_run_build (r := .new o) rfl (Cache.InOrder.empty o) rfl t
  obtain ⟨trace, after, hfirst⟩ := Tree.Alone.of_run hran
  exact ⟨ran.result, ⟨trace, after, Batch.Runs.mono Collector.first.mem hfirst⟩, by rw [hbuild]⟩

namespace Sample

theorem eq_of_within_base {t : Tree} (h : t.Within base) : t = base := by
  rcases Tree.within_iff.mp h with rfl | ⟨i, hi, -⟩
  · rfl
  · exact absurd hi List.not_mem_nil

theorem eq_of_within {root t : Tree} (hroot : root.includes = [⟨"base.thrift", true, base⟩])
    (h : t.Within root) : t = root ∨ t = base := by
  rcases Tree.within_iff.mp h with rfl | ⟨i, hi, ht⟩
  · exact .inl rfl
  · rw [hroot, List.mem_singleton] at hi
    subst hi
    exact .inr (eq_of_within_base ht)

/-- The trees among the broken file and the user's are these two and the base. -/
theorem eq_of_among {t : Tree} (h : t.Among [broken, user]) : t = broken ∨ t = user ∨ t = base := by
  obtain ⟨root, hroot, ht⟩ := h
  rcases List.mem_pair.mp hroot with rfl | rfl
  · exact (eq_of_within rfl ht).imp_right .inr
  · exact .inr (eq_of_within rfl ht)

end Sample

end IdlScope

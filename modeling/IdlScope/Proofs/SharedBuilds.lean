import IdlScope.Proofs.Interleavings
import IdlScope.Proofs.LoneTrees

/-!
# Shared builds — what a build does on a cache that others use as well

Builds that share a cache agree to keep it in order, and to keep in it, for every file of a family
of trees, nothing but what its tree comes to by itself.

* **`run_job`**, **`run_jobOfIncludes_cons`**, **`run_finishJob`** — the steps of a build.
* **`Cache.Agreed`** — what builds agree to keep; **`Cache.Agreed.insert`**, storing what a tree
  comes to keeps it.
* **`Tree.Promise`** — what a build that keeps to it gives and stores in the end.
* **`safe_job`** — every build keeps what is agreed on, and its promise, wherever others take their
  steps in between.
-/

namespace IdlScope

/-! ## The steps of a job -/

theorem Job.run_bind {α β : Type} (x : Job α) (f : α → Job β) :
    (x >>= f).run = x.run.bind fun
      | .ok a => (f a).run
      | .error e => .done (.error e) := by
  have hdef : (x >>= f).run = x.run.bind (ExceptT.bindCont f) := rfl
  rw [hdef]
  congr 1
  funext r
  cases r <;> rfl

theorem Job.run_lift {α : Type} (x : Except BuildError α) : (liftM x : Job α).run = .done x := rfl

theorem Task.bind_assoc {α β γ : Type} (x : Task α) (f : α → Task β) (g : β → Task γ) :
    (x.bind f).bind g = x.bind fun a => (f a).bind g := by
  induction x with
  | done a => rfl
  | look file next ih | number file next ih | store s next ih | report errors next ih =>
      simp only [bind, ih]

theorem Job.run_adapt {α : Type} (f : BuildError → BuildError) (x : Job α) :
    (ExceptT.adapt f x : Job α).run = x.run.bind fun r => .done (r.mapError f) := rfl

section Jobs

variable (o : Options) (waiting : List String)

/-- Finishing a file is storing its scope, or reporting an error. -/
theorem run_finishJob (d : Document) (file : FileId) (k : Linked) :
    (d.finishJob o file k).run =
      match d.outcome o (SharedScope.library k.holds) k.linkage with
      | .ok s => .store (.share file s k.holds) fun s => .done (.ok s)
      | .error errors => .report errors fun e => .done (.error e) := by
  rw [Document.finishJob]
  cases d.outcome o (SharedScope.library k.holds) k.linkage <;> rfl

/-- Building a file that has a scope, that waits for itself, or that is new. -/
theorem run_job (d : Document) (is : List (Included Tree)) :
    (Tree.job o waiting ⟨d, is⟩).run = .look d.filename fun
      | some s => .done (.ok s)
      | none =>
        if d.filename ∈ waiting then .done (.error (.circularInclude (waiting ++ [d.filename])))
        else .number d.filename fun file =>
          match d.check o with
          | .error e => .done (.error e)
          | .ok _ =>
            (jobOfIncludes o d (waiting ++ [d.filename]) is ⟨o.unlinked d, []⟩).run.bind fun
              | .error e => .done (.error e)
              | .ok k => (d.finishJob o file k).run := by
  rw [Tree.job, Job.run_bind]
  refine congrArg (Task.look d.filename) (funext fun answer => ?_)
  cases answer with
  | some s => rfl
  | none =>
      simp only [Task.bind, Function.comp_apply]
      split
      · rfl
      · rw [Job.run_bind]
        refine congrArg (Task.number d.filename) (funext fun file => ?_)
        simp only [Task.bind, Function.comp_apply]
        rw [Job.run_bind, Job.run_lift]
        cases d.check o with
        | error e => rfl
        | ok _ =>
            simp only [Task.bind]
            rw [Job.run_bind]
            refine congrArg (Task.bind _) (funext fun r => ?_)
            cases r <;> rfl

theorem run_jobOfIncludes_cons (d : Document) (path : String) (used : Bool) (t : Tree)
    (is : List (Included Tree)) (k : Linked) :
    (jobOfIncludes o d waiting (⟨path, used, t⟩ :: is) k).run =
      if used then
        (t.job o waiting).run.bind fun
          | .error e => .done (.error (.through d.filename path e))
          | .ok s => (jobOfIncludes o d waiting is (k.append o.language s)).run
      else (jobOfIncludes o d waiting is k.skip).run := by
  rw [jobOfIncludes, Job.run_bind, jobOfInclude]
  cases used with
  | false => rfl
  | true =>
      rw [if_pos rfl, if_pos rfl, Job.run_bind, Job.run_adapt, Task.bind_assoc, Task.bind_assoc]
      refine congrArg (Task.bind _) (funext fun r => ?_)
      cases r <;> rfl

end Jobs

/-! ## Families of trees -/

namespace Tree

theorem sizeOf_content_lt {t : Tree} {i : Included Tree} (hi : i ∈ t.includes) :
    sizeOf i.content < sizeOf t := by
  have := List.sizeOf_lt_of_mem hi
  cases t
  cases i
  simp at this ⊢
  omega

/-- The trees are closed under includes, and a file name stands for one of them. -/
structure Family (F : Tree → Prop) : Prop where
  includes : ∀ t, F t → ∀ i ∈ t.includes, F i.content
  unique : ∀ t u, F t → F u → t.filename = u.filename → t = u

/-- The trees are closed under used includes, and one that has its name in common with a tree of
the family is that tree. -/
structure Agrees (F G : Tree → Prop) : Prop where
  includes : ∀ t, G t → ∀ i ∈ t.includes, i.used = true → G i.content
  same : ∀ t u, G t → F u → t.filename = u.filename → t = u

/-- The files that wait for a tree are of larger trees. -/
def Above (G : Tree → Prop) (waiting : List String) (t : Tree) : Prop :=
  ∀ f ∈ waiting, ∃ v, G v ∧ v.filename = f ∧ sizeOf t < sizeOf v

theorem above_nil (G : Tree → Prop) (t : Tree) : Above G [] t :=
  fun _ h => absurd h List.not_mem_nil

theorem Above.content {G : Tree → Prop} {waiting : List String} {t : Tree}
    (h : Above G waiting t) (ht : G t) {i : Included Tree} (hi : i ∈ t.includes) :
    Above G (waiting ++ [t.filename]) i.content := by
  intro f hf
  have hsize := sizeOf_content_lt hi
  rcases List.mem_append.mp hf with hf | hf
  · obtain ⟨v, hv, hname, hless⟩ := h f hf
    exact ⟨v, hv, hname, hsize.trans hless⟩
  · exact ⟨t, ht, (List.mem_singleton.mp hf).symm, hsize⟩

/-- No file of the family waits for itself: its two trees would be the same. -/
theorem Above.not_mem {F G : Tree → Prop} (hG : Agrees F G) {waiting : List String} {t : Tree}
    (h : Above G waiting t) (ht : F t) : t.filename ∉ waiting := by
  intro hmem
  obtain ⟨v, hv, hname, hless⟩ := h _ hmem
  rw [hG.same v t hv ht hname] at hless
  exact Nat.lt_irrefl _ hless

end Tree

/-! ## Builds on a shared cache -/

/-- What the cache has for a tree of the family is what the tree comes to by itself. -/
def Cache.Faithful (o : Options) (F : Tree → Prop) (c : Cache) : Prop :=
  ∀ t, F t → ∀ s, c.get? t.filename = some s → t.lone o = .ok s.erase

/-- What builds that share a cache agree to keep. -/
structure Cache.Agreed (o : Options) (F : Tree → Prop) (c : Cache) : Prop where
  inOrder : c.InOrder o
  faithful : c.Faithful o F

/-- The scope is the finished one of a tree that a build may come to below the files that wait. -/
def Tree.MayAdd (o : Options) (waiting : List String) (t : Tree) (s : SharedScope) : Prop :=
  ∃ u, t.Uses u ∧ u.filename ∉ waiting ∧ s.Whole o u

/-- The same of the builds of includes. -/
def MayAddBelow (o : Options) (waiting : List String) (is : List (Included Tree))
    (s : SharedScope) : Prop :=
  ∃ i ∈ is, i.used = true ∧ i.content.MayAdd o waiting s

/-- What a build promises that is begun on the given cache, after the given events. -/
structure Tree.Promise (o : Options) (c : Collector) (P : Prop) (waiting : List String) (t : Tree)
    (start : Cache) (past : List Event) (r : Except BuildError SharedScope) (new : List Event)
    (m : Cache) : Prop where
  /-- A scope that is there is what it gives, and nothing happens. -/
  cached : ∀ s, start.get? t.filename = some s → r = .ok s ∧ new = past
  /-- The scope that it gives is in the cache. -/
  found : ∀ s, r = .ok s → m.get? t.filename = some s
  /-- For a tree of the family, the result is one that the tree may come to by itself. -/
  yields : P → t.Yields o c r
  adds : ∀ s, .stored s ∈ new → .stored s ∈ past ∨ t.MayAdd o waiting s
  /-- When it fails, it has stored nothing but scopes of files below its own. -/
  blocked : ∀ e, r = .error e → ∀ s, .stored s ∈ new → .stored s ∈ past ∨
    MayAddBelow o (waiting ++ [t.filename]) t.includes s

/-- What building includes promises. -/
structure Linked.Promise (o : Options) (c : Collector) (P : Prop) (d : Document)
    (waiting : List String) (is : List (Included Tree)) (k : Linked) (past : List Event)
    (r : Except BuildError Linked) (new : List Event) (m : Cache) : Prop where
  stored : ∀ k', r = .ok k' → ∀ s ∈ k'.holds, s ∈ m.stored
  joins : ∀ k', r = .ok k' → Linked.Joins o.language is k k'
  linked : ∀ k', r = .ok k' → P → loneIncludes o d is k.erase = .ok k'.erase
  failed : ∀ e, r = .error e → P → ∃ f, loneIncludes o d is k.erase = .error f ∧ f.Tells c e
  adds : ∀ s, .stored s ∈ new → .stored s ∈ past ∨ MayAddBelow o waiting is s

section Shared

variable {o : Options} {c : Collector} {F : Tree → Prop}

theorem MayAddBelow.cons {waiting : List String} {is : List (Included Tree)} {s : SharedScope}
    (h : MayAddBelow o waiting is s) (i : Included Tree) : MayAddBelow o waiting (i :: is) s := by
  obtain ⟨j, hj, hadd⟩ := h
  exact ⟨j, List.mem_cons_of_mem _ hj, hadd⟩

/-- What may be stored below a file may be stored by the build of the file. -/
theorem MayAddBelow.mayAdd {waiting : List String} {t : Tree} {s : SharedScope}
    (h : MayAddBelow o (waiting ++ [t.filename]) t.includes s) : t.MayAdd o waiting s := by
  obtain ⟨i, hi, hused, u, huses, hfree, hwhole⟩ := h
  exact ⟨u, .inside hi hused huses, fun hu => hfree (List.mem_append_left _ hu), hwhole⟩

/-- A scope that the cache has for a tree is what the build of the tree promises to give. -/
theorem Tree.Promise.cached_scope {P : Prop} {waiting : List String} {t : Tree} {start m : Cache}
    {past : List Event} {s : SharedScope} (hle : start ≤ m) (hget : m.get? t.filename = some s)
    (hyields : P → t.lone o = .ok s.erase) :
    t.Promise o c P waiting start past (.ok s) past m where
  cached u hu := by
    have hsame : some s = some u := hget.symm.trans (Cache.get?_mono hle hu)
    exact ⟨congrArg _ (Option.some.inj hsame), rfl⟩
  found u hu := Except.ok.inj hu ▸ hget
  yields := hyields
  adds _ := .inl
  blocked := nofun

/-- A build that fails has promised little: only what was built below its file may be stored. -/
theorem Tree.Promise.error {P : Prop} {waiting : List String} {t : Tree} {start m : Cache}
    {past new : List Event} {e : BuildError} (hstart : start.get? t.filename = none)
    (hyields : P → t.Yields o c (.error e))
    (hadds : ∀ s, .stored s ∈ new → .stored s ∈ past ∨
      MayAddBelow o (waiting ++ [t.filename]) t.includes s) :
    t.Promise o c P waiting start past (.error e) new m where
  cached := by
    rw [hstart]
    nofun
  found := nofun
  yields := hyields
  adds s hs := (hadds s hs).imp_right MayAddBelow.mayAdd
  blocked _ _ := hadds

/-- Includes whose builds keep their promises are linked as they are by themselves. -/
theorem safe_jobOfIncludes {P : Prop} (d : Document) (waiting : List String)
    (is : List (Included Tree))
    (hbuild : ∀ i ∈ is, i.used = true → ∀ past cache, cache.Agreed o F →
      Task.Safe c (Cache.Agreed o F) (i.content.Promise o c P waiting cache past)
        (i.content.job o waiting).run past cache)
    (k : Linked) (past : List Event) (cache : Cache) (hcache : cache.Agreed o F)
    (hk : ∀ s ∈ k.holds, s ∈ cache.stored) :
    Task.Safe c (Cache.Agreed o F) (Linked.Promise o c P d waiting is k past)
      (jobOfIncludes o d waiting is k).run past cache := by
  induction is generalizing k past cache with
  | nil =>
      constructor
      case stored => rintro _ ⟨⟩; exact hk
      case joins => rintro _ ⟨⟩; exact .nil k
      case linked => rintro _ ⟨⟩ -; rfl
      case failed => nofun
      case adds => exact fun _ => .inl
  | cons i is ih =>
      obtain ⟨path, used, t⟩ := i
      have hrest := ih fun j hj => hbuild j (List.mem_cons_of_mem _ hj)
      rw [run_jobOfIncludes_cons]
      cases used with
      | false =>
          refine (hrest k.skip past cache hcache hk).imp fun r new m hr => ?_
          exact ⟨hr.stored, fun k' hk' => .unused (hr.joins k' hk'), hr.linked, hr.failed,
            fun s hs => (hr.adds s hs).imp_right (·.cons _)⟩
      | true =>
          rw [if_pos rfl]
          have hfirst := hbuild _ List.mem_cons_self rfl past cache hcache
          have hbelow : ∀ s, t.MayAdd o waiting s →
              MayAddBelow o waiting (⟨path, true, t⟩ :: is) s :=
            fun s hs => ⟨_, List.mem_cons_self, rfl, hs⟩
          refine Task.Safe.bind ((hfirst.bounded (le_refl cache) hcache).imp ?_)
          rintro (e | s) new m ⟨hpromise, hle, hm⟩
          · constructor
            case stored | joins | linked => nofun
            case failed =>
              rintro _ ⟨⟩ hP
              obtain ⟨f, hf, cause, hcause, rfl⟩ := hpromise.yields hP
              refine ⟨f.through d.filename path, ?_, cause, hcause, f.told_through _ _ cause⟩
              rw [loneIncludes_cons_used, hf]
            case adds => exact fun s hs => (hpromise.adds s hs).imp_right (hbelow s)
          · obtain ⟨hs, hname⟩ := hm.inOrder.get?_eq_some_iff.mp (hpromise.found s rfl)
            have hholds : ∀ u ∈ (k.append o.language s).holds, u ∈ m.stored := by
              intro u hu
              rcases List.mem_append.mp hu with hu | hu
              · exact (Cache.stored_prefix hle).subset (hk u hu)
              · rwa [List.mem_singleton.mp hu]
            have hlone : P → loneIncludes o d (⟨path, true, t⟩ :: is) k.erase =
                loneIncludes o d is (k.append o.language s).erase := by
              intro hP
              have hyields : t.lone o = .ok s.erase := hpromise.yields hP
              rw [loneIncludes_cons_used, hyields, Linked.erase_append]
            refine (hrest (k.append o.language s) new m hm hholds).imp fun r newer m hr => ?_
            constructor
            case stored => exact hr.stored
            case joins => exact fun k' hk' => .used hname (hr.joins k' hk')
            case linked => exact fun k' hk' hP => (hlone hP).trans (hr.linked k' hk' hP)
            case failed => exact fun e he hP => (hlone hP).symm ▸ hr.failed e he hP
            case adds =>
              intro u hu
              rcases hr.adds u hu with hu | hu
              · exact (hpromise.adds u hu).imp_right (hbelow u)
              · exact .inr (hu.cons _)

/-- Giving a number keeps what is agreed on. -/
theorem Cache.Agreed.fileId {cache : Cache} (h : cache.Agreed o F) (path : String) :
    (cache.fileId path).2.Agreed o F := by
  have horder := h.inOrder.fileId path
  have hstored : (cache.fileId path).2.stored = cache.stored := by
    rw [stored, cache.scopes_fileId, stored]
  refine ⟨horder, fun t ht s hs => ?_⟩
  rw [horder.get?_eq_some_iff, hstored, ← h.inOrder.get?_eq_some_iff] at hs
  exact h.faithful t ht s hs

/-- A tree whose includes are linked comes by itself to what finishing it comes to. -/
theorem Tree.lone_of_linked {t : Tree} {k : Linked} (file : FileId)
    (hcheck : t.document.check o = .ok ())
    (hincludes : loneIncludes o t.document t.includes ⟨o.unlinked t.document, []⟩ = .ok k.erase) :
    t.lone o =
      match t.document.outcome o (SharedScope.library k.holds) k.linkage with
      | .ok s => .ok (SharedScope.share file s k.holds).erase
      | .error errors => .error ⟨errors, []⟩ := by
  obtain ⟨d, is⟩ := t
  rw [lone_eq, hcheck, hincludes]
  dsimp only
  rw [Linked.library_erase, show k.erase.linkage = k.linkage from rfl]
  cases d.outcome o (SharedScope.library k.holds) k.linkage with
  | error errors => rfl
  | ok s => exact congrArg Except.ok (SharedScope.renumber_share (fun _ => ⟨0⟩) file s _).symm

/-- Storing the scope of a tree keeps what is agreed on, if it is what the tree comes to by itself.
What is handed out then is in the cache, and it is what the tree comes to as well. -/
theorem Cache.Agreed.insert {G : Tree → Prop} (hG : Tree.Agrees F G) {t : Tree} (ht : G t)
    {cache : Cache} (h : cache.Agreed o F) {s : SharedScope} (hname : s.filename = t.filename)
    (hfiled : cache.paths.get? s.filename = some s.file)
    (hstands : cache.get? s.filename = none → s.Stands o cache.stored)
    (hlone : F t → t.lone o = .ok s.erase) :
    (cache.insert s).2.Agreed o F ∧
      (cache.insert s).2.get? t.filename = some (cache.insert s).1 ∧
      (F t → t.lone o = .ok (cache.insert s).1.erase) := by
  obtain ⟨horder, -, hget⟩ := h.inOrder.insert hfiled hstands
  rw [hname] at hget
  have hgiven : F t → t.lone o = .ok (cache.insert s).1.erase := by
    intro hF
    cases hlookup : cache.scopes.lookup s.file with
    | none =>
        rw [Cache.insert_of_none hlookup]
        exact hlone hF
    | some existing =>
        rw [Cache.insert_of_some hlookup] at hget ⊢
        exact h.faithful t hF existing hget
  refine ⟨⟨horder, fun u hu v hv => ?_⟩, hget, hgiven⟩
  by_cases huname : u.filename = t.filename
  · obtain rfl := hG.same t u ht hu huname.symm
    rw [hget] at hv
    exact Option.some.inj hv ▸ hgiven hu
  · obtain ⟨hmem, hvname⟩ := horder.get?_eq_some_iff.mp hv
    refine h.faithful u hu v (h.inOrder.get?_eq_some_iff.mpr ⟨?_, hvname⟩)
    refine (cache.mem_stored_insert hmem).resolve_right ?_
    rintro rfl
    exact huname (hvname.symm.trans hname)

/-- Finishing a file on top of scopes in the cache keeps what is agreed on. -/
theorem safe_finishJob {G : Tree → Prop} (hG : Tree.Agrees F G) {t : Tree} (ht : G t)
    {waiting : List String} (hnew : t.filename ∉ waiting) {file : FileId} {k : Linked}
    {past new : List Event} {start cache : Cache} (hstart : start.get? t.filename = none)
    (hfiled : cache.paths.get? t.filename = some file) (hcheck : t.document.check o = .ok ())
    (hlinked : Linked.Promise o c (F t) t.document (waiting ++ [t.filename]) t.includes
      ⟨o.unlinked t.document, []⟩ past (.ok k) new cache) :
    Task.Safe c (Cache.Agreed o F) (t.Promise o c (F t) waiting start past)
      (t.document.finishJob o file k).run new cache := by
  have hadds : ∀ s, .stored s ∈ new → .stored s ∈ past ∨
      MayAddBelow o (waiting ++ [t.filename]) t.includes s := hlinked.adds
  have halone := fun hF => t.lone_of_linked file hcheck (hlinked.linked k rfl hF)
  rw [run_finishJob]
  cases houtcome : t.document.outcome o (SharedScope.library k.holds) k.linkage with
  | error errors =>
      rw [houtcome] at halone
      exact ⟨Document.ne_nil_of_outcome houtcome, fun e he =>
        .error hstart (fun hF => ⟨_, halone hF, e, he, rfl⟩) hadds⟩
  | ok s =>
      rw [houtcome] at halone
      intro m hle hm
      have hscope := Document.outcome_eq_ok_iff.mp houtcome
      have hname : (SharedScope.share file s k.holds).filename = t.filename :=
        Document.filename_of_scope hscope
      have hfiled' : m.paths.get? t.filename = some file := Cache.get?_paths_mono hle hfiled
      have hstands (hfree : m.get? t.filename = none) :
          (SharedScope.share file s k.holds).Whole o t ∧
            (SharedScope.share file s k.holds).Stands o m.stored :=
        hm.inOrder.stands_share
          (fun u hu => (Cache.stored_prefix hle).subset (hlinked.stored k rfl u hu)) hfree
          (hlinked.joins k rfl) hscope
      obtain ⟨hagreed, hget, hgiven⟩ := hm.insert hG ht hname (hname ▸ hfiled')
        (fun hfree => (hstands (hname ▸ hfree)).2) halone
      refine ⟨hagreed, ?_⟩
      constructor
      case cached =>
        rw [hstart]
        nofun
      case found => exact fun u hu => Except.ok.inj hu ▸ hget
      case yields => exact hgiven
      case blocked => nofun
      case adds =>
        intro u hu
        rcases List.mem_append.mp hu with hu | hu
        · exact (hadds u hu).imp_right MayAddBelow.mayAdd
        · split at hu
          case isTrue hlookup =>
            have hfree : m.get? t.filename = none := by
              rw [Cache.get?, hfiled']
              exact hlookup
            obtain rfl := Event.stored.inj (List.mem_singleton.mp hu)
            exact .inr ⟨t, .root t, hnew, (hstands hfree).1⟩
          case isFalse => exact absurd hu List.not_mem_nil

/-- A build on a shared cache keeps what is agreed on, and its promise. -/
theorem safe_job {G : Tree → Prop} (hF : Tree.Family F) (hG : Tree.Agrees F G) (t : Tree)
    (ht : G t) (waiting : List String) (hw : Tree.Above G waiting t) (past : List Event)
    (cache : Cache) :
    Task.Safe c (Cache.Agreed o F) (t.Promise o c (F t) waiting cache past) (t.job o waiting).run
      past cache := by
  induction t using Tree.induct generalizing waiting past cache with
  | step d is ih =>
      rw [run_job]
      intro m hle hm
      cases hget : m.get? d.filename with
      | some s => exact .cached_scope hle hget fun hF => hm.faithful _ hF s hget
      | none =>
          have hstart : cache.get? d.filename = none := Cache.get?_eq_none_mono hle hget
          dsimp only
          split
          case isTrue hwaits =>
            exact .error hstart (fun hF => absurd hwaits (hw.not_mem hG hF)) fun _ => .inl
          case isFalse hnew =>
            intro m' hle' hm'
            refine ⟨hm'.fileId _, ?_⟩
            have hmet : ∀ s, .stored s ∈ past ++ [.met d.filename] → .stored s ∈ past := by simp
            cases hcheck : d.check o with
            | error e =>
                refine .error hstart (fun hF => ⟨⟨[e], []⟩, ?_, e, c.reports_singleton e, rfl⟩)
                  fun s hs => .inl (hmet s hs)
                rw [lone_eq, hcheck]
            | ok _ =>
                have hbuild : ∀ i ∈ is, i.used = true → ∀ past cache, cache.Agreed o F →
                    Task.Safe c (Cache.Agreed o F)
                      (i.content.Promise o c (F ⟨d, is⟩) (waiting ++ [d.filename]) cache past)
                      (i.content.job o (waiting ++ [d.filename])).run past cache := by
                  intro i hi hused past cache _
                  have hsafe :=
                    ih i hi (hG.includes _ ht i hi hused) _ (hw.content ht hi) past cache
                  refine hsafe.imp fun r new m hr => ?_
                  exact ⟨hr.cached, hr.found, fun hP => hr.yields (hF.includes _ hP i hi),
                    hr.adds, hr.blocked⟩
                have hincludes := safe_jobOfIncludes d (waiting ++ [d.filename]) is hbuild
                  ⟨o.unlinked d, []⟩ (past ++ [.met d.filename]) _ (hm'.fileId d.filename) nofun
                refine Task.Safe.bind ((hincludes.bounded (le_refl _) (hm'.fileId _)).imp ?_)
                rintro (e | k) new n ⟨hpromise, hle'', hn⟩
                all_goals
                  have hadds : ∀ s, .stored s ∈ new → .stored s ∈ past ∨
                      MayAddBelow o (waiting ++ [d.filename]) is s :=
                    fun s hs => (hpromise.adds s hs).imp_left (hmet s)
                · refine .error hstart (fun hP => ?_) hadds
                  obtain ⟨f, hf, htells⟩ := hpromise.failed e rfl hP
                  have hf : loneIncludes o d is ⟨o.unlinked d, []⟩ = .error f := hf
                  refine ⟨f, ?_, htells⟩
                  rw [lone_eq, hcheck, hf]
                · exact safe_finishJob hG (t := ⟨d, is⟩) ht hnew hstart
                    (Cache.get?_paths_mono hle'' (m'.get?_fileId d.filename)) hcheck
                    { hpromise with adds := hadds }

/-- Promises are kept while the cache grows. -/
theorem Tree.Promise.stable (P : Prop) (waiting : List String) (t : Tree) (start : Cache)
    (past : List Event) :
    Task.Stable (Cache.Agreed o F) (t.Promise o c P waiting start past) := by
  intro r new m m' hle hm' h
  exact ⟨h.cached, fun s hs => Cache.get?_mono hle (h.found s hs), h.yields, h.adds, h.blocked⟩

end Shared

end IdlScope

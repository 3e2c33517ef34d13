import IdlScope.Proofs.Caches

/-!
# Lone trees — what a tree comes to by itself

Numbers aside, a tree has one scope or one failure, whatever cache it is built on and whoever else
builds on it. Both are told here by the tree alone.

* **`Tree.lone`** — the scope of a tree without numbers, or its failure.
* **`Failure`** — a file may have several errors. Which of them is reported is up to the collector,
  and the way to the file is told with each.
* **`SharedScope.renumber_share`** — what is shared does not depend on numbers.
-/

namespace IdlScope

/-! ## Failures -/

/-- Why a tree has no scope: the errors of a file of which one is reported, and the includes on the
way to that file, the outermost last. -/
structure Failure where
  errors : List BuildError
  path : List (String × String)

namespace Failure

/-- The failure of a file whose include failed. -/
def through (file path : String) (f : Failure) : Failure :=
  { f with path := f.path ++ [(file, path)] }

/-- What the tree fails with if an error of the file is reported. -/
def told (f : Failure) (e : BuildError) : BuildError :=
  f.path.foldl (fun e p => e.through p.1 p.2) e

theorem told_through (f : Failure) (file path : String) (e : BuildError) :
    (f.through file path).told e = (f.told e).through file path := by
  simp [told, through]

/-- What the tree may fail with. -/
def Tells (f : Failure) (c : Collector) (e : BuildError) : Prop :=
  ∃ cause, c.reports f.errors cause ∧ f.told cause = e

end Failure

/-- A collector reports the only error that there is. -/
theorem Collector.reports_singleton (c : Collector) (e : BuildError) : c.reports [e] e := by
  obtain ⟨e', he'⟩ := c.total [e] (List.cons_ne_nil e [])
  have heq := c.mem _ _ he'
  rw [List.mem_singleton] at heq
  exact heq ▸ he'

/-! ## Trees by themselves -/

/-- The shared scope without its numbers. -/
def SharedScope.erase (s : SharedScope) : SharedScope :=
  s.renumber fun _ => ⟨0⟩

/-- The includes that are built so far, without numbers. -/
def Linked.erase (k : Linked) : Linked :=
  ⟨k.linkage, k.holds.map SharedScope.erase⟩

mutual

/-- What a tree comes to by itself, without a cache and without numbers. -/
def Tree.lone (o : Options) : Tree → Except Failure SharedScope
  | ⟨d, includes⟩ => do
    (d.check o).mapError fun e => ⟨[e], []⟩
    let k ← loneIncludes o d includes ⟨o.unlinked d, []⟩
    match d.outcome o (SharedScope.library k.holds) k.linkage with
    | .ok s => return .share ⟨0⟩ s k.holds
    | .error errors => throw ⟨errors, []⟩
termination_by structural t => t

/-- What the includes of a document come to by themselves, linked in order. -/
def loneIncludes (o : Options) (d : Document) : List (Included Tree) → Linked →
    Except Failure Linked
  | [], k => return k
  | i :: is, k => do
    let k ← loneInclude o d i k
    loneIncludes o d is k
termination_by structural is => is

/-- What an include of a document comes to by itself. -/
def loneInclude (o : Options) (d : Document) : Included Tree → Linked → Except Failure Linked
  | ⟨path, used, tree⟩, k =>
    if used then do
      let s ← (tree.lone o).mapError (Failure.through d.filename path)
      return k.append o.language s
    else return k.skip
termination_by structural i => i

end

section Steps

variable {o : Options}

theorem loneIncludes_cons_used (d : Document) (path : String) (t : Tree)
    (is : List (Included Tree)) (k : Linked) :
    loneIncludes o d (⟨path, true, t⟩ :: is) k =
      match t.lone o with
      | .ok s => loneIncludes o d is (k.append o.language s)
      | .error f => .error (f.through d.filename path) := by
  rw [loneIncludes, loneInclude, if_pos rfl]
  cases t.lone o <;> rfl

theorem lone_eq (d : Document) (is : List (Included Tree)) :
    Tree.lone o ⟨d, is⟩ =
      match d.check o with
      | .error e => .error ⟨[e], []⟩
      | .ok _ =>
        match loneIncludes o d is ⟨o.unlinked d, []⟩ with
        | .error f => .error f
        | .ok k =>
          match d.outcome o (SharedScope.library k.holds) k.linkage with
          | .ok s => .ok (.share ⟨0⟩ s k.holds)
          | .error errors => .error ⟨errors, []⟩ := by
  rw [Tree.lone]
  cases d.check o with
  | error e => rfl
  | ok _ =>
      dsimp only [Except.mapError]
      rw [ok_bind]
      cases loneIncludes o d is ⟨o.unlinked d, []⟩ with
      | error f => rfl
      | ok k =>
          rw [ok_bind]
          dsimp only
          cases d.outcome o (SharedScope.library k.holds) k.linkage <;> rfl

end Steps

/-! ## Other numbers -/

namespace SharedScope

theorem renumberAll_eq_map (ρ : FileId → FileId) (ss : List SharedScope) :
    renumberAll ρ ss = ss.map (renumber ρ) := by
  induction ss with
  | nil => rfl
  | cons s ss ih => rw [renumberAll, ih, List.map_cons]

theorem renumber_eq (ρ : FileId → FileId) (s : SharedScope) :
    s.renumber ρ = mk (ρ s.file) s.scope (s.holds.map (renumber ρ)) := by
  cases s
  rw [renumber, renumberAll_eq_map]
  rfl

@[simp] theorem scope_renumber (ρ : FileId → FileId) (s : SharedScope) :
    (s.renumber ρ).scope = s.scope := by
  rw [renumber_eq]
  rfl

@[simp] theorem holds_renumber (ρ : FileId → FileId) (s : SharedScope) :
    (s.renumber ρ).holds = s.holds.map (renumber ρ) := by
  rw [renumber_eq]
  rfl

@[simp] theorem filename_renumber (ρ : FileId → FileId) (s : SharedScope) :
    (s.renumber ρ).filename = s.filename := by
  rw [filename, scope_renumber, filename]

theorem allOf_map_renumber (ρ : FileId → FileId) (ss : List SharedScope) :
    allOf (ss.map (renumber ρ)) = (allOf ss).map (renumber ρ) := by
  have hall : ∀ s : SharedScope, (s.renumber ρ).all = s.all.map (renumber ρ) := by
    intro s
    induction s using SharedScope.induct with
    | step file scope holds ih =>
        rw [all_eq_cons, all_eq_cons, List.map_cons, holds_renumber, allOf_eq_flatMap,
          allOf_eq_flatMap, List.flatMap_map, List.map_flatMap]
        refine congrArg _ (List.flatMap_congr fun s hs => ih s hs)
  rw [allOf_eq_flatMap, allOf_eq_flatMap, List.flatMap_map, List.map_flatMap]
  exact List.flatMap_congr fun s _ => hall s

theorem find?_map_renumber (ρ : FileId → FileId) (ss : List SharedScope) (file : String) :
    find? (ss.map (renumber ρ)) file = (find? ss file).map (renumber ρ) := by
  rw [find?, allOf_map_renumber, List.find?_map, find?]
  congr 2
  funext s
  simp

@[simp] theorem library_map_renumber (ρ : FileId → FileId) (ss : List SharedScope) :
    library (ss.map (renumber ρ)) = library ss := by
  simp [library, allOf_map_renumber, Function.comp_def]

theorem renumber_share (ρ : FileId → FileId) (file : FileId) (s : Scope)
    (linked : List SharedScope) :
    (share file s linked).renumber ρ = share (ρ file) s (linked.map (renumber ρ)) := by
  rw [renumber_eq, share, share]
  simp [SharedScope.file, SharedScope.scope, SharedScope.holds, find?_map_renumber,
    List.map_filterMap]

end SharedScope

namespace Linked

theorem erase_append (k : Linked) (g : Language) (s : SharedScope) :
    (k.append g s).erase = k.erase.append g s.erase := by
  simp [append, erase, SharedScope.erase]

@[simp] theorem library_erase (k : Linked) :
    SharedScope.library k.erase.holds = SharedScope.library k.holds :=
  SharedScope.library_map_renumber _ _

end Linked

/-- The result is one that the tree may come to by itself. -/
def Tree.Yields (o : Options) (c : Collector) (t : Tree) : Except BuildError SharedScope → Prop
  | .ok s => t.lone o = .ok s.erase
  | .error e => ∃ f, t.lone o = .error f ∧ f.Tells c e

end IdlScope

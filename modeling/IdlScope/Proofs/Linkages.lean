import IdlScope.Proofs.Stages

/-!
# Linkages — what holds of a linkage from its first include to the finished file

The linkage of a file changes in three ways only: an include of a finished file is appended, a
place is left empty for an include that the source never uses, and marks of imports change. What
all three keep holds of every finished linkage if it holds of the empty one:

* **`Linkage.Reaches`** — what finishing does to a linkage is to ask for qualifiers and to prune;
  every stage of it is reached that way (`Roster.Finishes.reaches`).
* **`Linkage.Lasting`** — a property that the three changes keep.
* **`Scope.Built.lasting`** — such a property holds of every scope that was built.
* **`Linkage.Described`** — the first use: an include says of its file what the scope of the
  file says, however it came to be there.
-/

namespace IdlScope

/-! ## What finishing does -/

/-- Asking for qualifiers of any homes and pruning leads from one linkage to the other. -/
inductive Linkage.Reaches (e : RenderEnv) (k : Linkage) : Linkage → Prop
  | refl : Reaches e k k
  | ask {k' : Linkage} (h : Reaches e k k') (home : Home) : Reaches e k (e.qualifierOf k' home).2
  | prune {k' : Linkage} (h : Reaches e k k') (mentioned : List String) :
    Reaches e k (k'.prune mentioned)

namespace Linkage.Reaches

variable {e : RenderEnv} {k k' k'' : Linkage}

theorem trans (h : k.Reaches e k') (h' : k'.Reaches e k'') : k.Reaches e k'' := by
  induction h' with
  | refl => exact h
  | ask _ home ih => exact .ask ih home
  | prune _ mentioned ih => exact .prune ih mentioned

theorem visit (h : k.Reaches e k') (homes : List Home) : k.Reaches e (e.visit k' homes) := by
  induction homes generalizing k' with
  | nil => exact h
  | cons home homes ih => exact ih (.ask h home)

/-- A step that only asks for qualifiers. -/
theorem of_visit (h : k.Reaches e k') {homes : List Home} (hvisit : k'' = e.visit k' homes) :
    k.Reaches e k'' ∧ k' ≤ k'' := by
  subst hvisit
  exact ⟨h.visit homes, RenderEnv.le_visit _ k' homes⟩

end Linkage.Reaches

namespace Roster.Finishes

variable {r : Roster} {e : RenderEnv} {own : Place} {resolved : StructureLists ResolvedField}
  {done : Finished} {found : List (Option ServiceBase)} {k k' k₁ k₂ k₃ k₄ : Linkage}
  (h : r.Finishes e own resolved k done k' found k₁ k₂ k₃ k₄)
include h

/-- All stages of finishing ask for qualifiers: fields, typedefs, constants, and, after pruning,
bases of services and functions. -/
theorem reaches : k.Reaches e k₁ ∧ k₁.Reaches e k₂ ∧ k₂.Reaches e k₃ ∧
    (k₃.prune (mentionedAliases done.structures done.typedefs done.constants)).Reaches e k₄ ∧
    k₄.Reaches e k' := by
  obtain ⟨hvisit, -⟩ := RenderEnv.rendering_eq_ok
    (RenderEnv.Writes.ofStructures (RenderEnv.writes_field e) resolved) h.structures
  obtain ⟨h₂, -⟩ := mapM_steps (C := (k₁.Reaches e ·)) (fun _ _ _ _ hk hrun => by
    obtain ⟨target, -, hvisit, -⟩ := RenderEnv.typedef_eq_ok hrun
    exact hk.of_visit hvisit) .refl h.typedefs
  obtain ⟨h₃, -⟩ := mapM_steps (C := (k₂.Reaches e ·)) (fun _ _ _ _ hk hrun => by
    obtain ⟨type, value, -, -, hvisit, -⟩ := RenderEnv.constant_eq_ok hrun
    exact hk.of_visit hvisit) .refl h.constants
  obtain ⟨h₄, -⟩ := mapM_steps (C := (Linkage.Reaches e _ ·)) (fun _ _ _ _ hk hrun => by
    obtain ⟨homes, hvisit, -⟩ := RenderEnv.serviceBase_eq_ok hrun
    exact hk.of_visit hvisit) .refl h.bases
  have hfunction : ∀ structures serviceName (f : NamedFunction) (k : Linkage) (fn : Function)
      (k' : Linkage), k₄.Reaches e k →
      (e.function own structures serviceName f).run k = .ok (fn, k') →
        k₄.Reaches e k' ∧ k ≤ k' := by
    intro structures serviceName f k fn k' hk hrun
    obtain ⟨arguments, response, throws, -, -, -, hvisit, -⟩ := RenderEnv.function_eq_ok hrun
    exact hk.of_visit hvisit
  obtain ⟨h₅, -⟩ := mapM_steps (C := (k₄.Reaches e ·)) (fun _ _ _ _ hk hrun => by
    obtain ⟨hk', hle, -⟩ := mapM_steps (hfunction _ _) hk (RenderEnv.service_eq_ok hrun).2
    exact ⟨hk', hle⟩) .refl h.services
  exact ⟨hvisit ▸ Linkage.Reaches.refl.visit _, h₂, h₃, h₄, h₅⟩

/-- So the linkages of all stages are reached from the first one. -/
theorem reaches_stages : k.Reaches e k₁ ∧ k.Reaches e k₂ ∧ k.Reaches e k₃ ∧ k.Reaches e k₄ ∧
    k.Reaches e k' := by
  obtain ⟨h₁, h₂, h₃, h₄, h₅⟩ := h.reaches
  have hconstants : k.Reaches e k₃ := (h₁.trans h₂).trans h₃
  have hbases : k.Reaches e k₄ := (hconstants.prune _).trans h₄
  exact ⟨h₁, h₁.trans h₂, hconstants, hbases, hbases.trans h₅⟩

end Roster.Finishes

/-- A scope that was built has its linkage from the one of its includes. -/
theorem Scope.Built.reaches {s : Scope} {o : Options} {t : Tree} {l : Library} {k : Linkage}
    (h : s.Built o t l k) : k.Reaches ⟨o.language, l⟩ s.linkage := by
  obtain ⟨r, resolved, done, hpasses⟩ := Document.scope_eq_ok h.scope
  obtain ⟨found, k₁, k₂, k₃, k₄, hstages⟩ := Roster.finish_eq_ok hpasses.finished
  exact hstages.reaches_stages.2.2.2.2

/-! ## Properties that last -/

/-- The property is kept when an include of a scope of the library is appended, when a place is
left empty, and when the mark of an import changes. -/
structure Linkage.Lasting (g : Language) (l : Library) (C : Linkage → Prop) : Prop where
  append : ∀ k file s, l.scope? file = some s → C k → C (k.append g s.document s.package).2
  skip : ∀ k, C k → C k.skip
  mark : ∀ k path used, C k → C { k with imports := k.imports.setUsed path used }

namespace Linkage.Lasting

variable {g : Language} {l : Library} {C : Linkage → Prop} (hC : Lasting g l C) {k k' : Linkage}
include hC

theorem qualifierFor (hk : C k) {file : String} {s : Scope} (hs : l.scope? file = some s) :
    C (k.qualifierFor g s.document s.package).2 := by
  rcases qualifierFor_cases g s.document s.package k with h | h | ⟨-, -, h⟩ <;> rw [h]
  · exact hk
  · exact hC.mark k _ true hk
  · exact hC.append k file s hs hk

theorem qualifierOf (hk : C k) (home : Home) : C ((RenderEnv.mk g l).qualifierOf k home).2 := by
  unfold RenderEnv.qualifierOf
  cases home with
  | here => exact hk
  | foreign file =>
      dsimp only
      split
      · exact hk
      · next s hs => exact hC.qualifierFor hk hs

theorem prune (hk : C k) (mentioned : List String) : C (k.prune mentioned) := by
  have hpaths : ∀ (paths : List String) (k : Linkage), C k →
      C { k with imports := paths.foldl ImportTable.markUnused k.imports } := by
    intro paths
    induction paths with
    | nil => exact fun k hk => hk
    | cons path paths ih => exact fun k hk => ih _ (hC.mark k path false hk)
  have hprune : k.prune mentioned = { k with imports := (k.prune mentioned).imports } := rfl
  rw [hprune, imports_prune]
  exact hpaths _ k hk

/-- Linking includes keeps it. -/
theorem links {is : List (Included Tree)} (h : Links l g is k k') (hk : C k) : C k' := by
  induction h with
  | nil k => exact hk
  | used hs _ ih => exact ih (hC.append _ _ _ hs hk)
  | unused _ ih => exact ih (hC.skip _ hk)

/-- Finishing keeps it. -/
theorem reaches (h : k.Reaches ⟨g, l⟩ k') (hk : C k) : C k' := by
  induction h with
  | refl => exact hk
  | ask _ home ih => exact hC.qualifierOf ih home
  | prune _ mentioned ih => exact hC.prune ih mentioned

end Linkage.Lasting

/-- The includes of a linkage stay in the library. -/
theorem Linkage.lasting_covered (g : Language) (l : Library) : Lasting g l (Covered l) where
  append _ file s hs hk := by
    have hname : s.document.filename = file := Library.filename_of_scope? hs
    exact hk.append g ⟨s, hname ▸ hs⟩ _
  skip _ hk := hk.skip
  mark _ _ _ hk := hk

/-- What lasts and holds of the linkage without includes holds of every scope that was built. -/
theorem Scope.Built.lasting {s : Scope} {o : Options} {t : Tree} {l : Library} {k : Linkage}
    (h : s.Built o t l k) {C : Linkage → Prop} (hC : Linkage.Lasting o.language l C)
    (hstart : C (o.unlinked t.document)) : C s.linkage :=
  hC.reaches h.reaches (hC.links h.links hstart)

/-- The linkage of a finished file is tidy. -/
theorem Scope.Built.tidy_linkage {s : Scope} {o : Options} {t : Tree} {l : Library} {k : Linkage}
    (h : s.Built o t l k) : s.linkage.Tidy :=
  h.lasting ⟨fun _ _ _ _ hk => hk.append _ _ _, fun _ hk => hk.skip,
    fun _ path used hk => hk.setUsed path used⟩ (Linkage.tidy_new _)

/-! ## Includes and the scopes that they are of -/

/-- What the include of a file says is what the scope of the file says, seen from a package. -/
structure Include.Describes (i : Include) (g : Language) (own : Package) (s : Scope) : Prop where
  file : i.file = s.filename
  stem : i.stem = s.document.stem
  domain : i.domain = s.package.domain
  path : i.path = g.importPath own s.package
  samePackage : i.samePackage = true ↔ s.package.path = own.path
  packageName : i.samePackage = true → i.packageName = s.package.preferredAlias

/-- What is appended for a scope comes last and describes it. -/
theorem Linkage.includes_append (g : Language) (k : Linkage) (s : Scope) :
    ∃ i : Include, (k.append g s.document s.package).2.includes = k.includes ++ [some i] ∧
      i.Describes g k.package s := by
  rw [append]
  dsimp only
  split
  · next hsame =>
    refine ⟨_, rfl, ?_⟩
    constructor
    case samePackage => exact iff_of_true rfl hsame
    case packageName => exact fun _ => rfl
    all_goals dsimp only [Scope.filename]
  · next hsame =>
    refine ⟨_, rfl, ?_⟩
    constructor
    case samePackage => exact iff_of_false Bool.false_ne_true hsame
    case packageName => exact fun h => absurd h Bool.false_ne_true
    all_goals dsimp only [Scope.filename]

theorem Linkage.describes_of_mem_append {g : Language} {k : Linkage} {s : Scope} {i : Include}
    (hi : i ∈ (k.append g s.document s.package).2.present) :
    i ∈ k.present ∨ i.Describes g k.package s := by
  obtain ⟨j, hincludes, hj⟩ := includes_append g k s
  rw [present, hincludes, List.filterMap_append] at hi
  refine (List.mem_append.mp hi).imp_right fun hi => ?_
  rw [List.mem_singleton.mp hi]
  exact hj

/-- Every include describes the scope that the library has of its file. -/
def Linkage.Described (g : Language) (l : Library) (k : Linkage) : Prop :=
  ∀ i ∈ k.present, ∃ s, l.scope? i.file = some s ∧ i.Describes g k.package s

theorem Linkage.lasting_described (g : Language) (l : Library) : Lasting g l (Described g l) := by
  refine ⟨?_, ?_, fun k path used hk => hk⟩
  · intro k file s hs hk i hi
    rw [← (le_append g s.document s.package k).1]
    rcases describes_of_mem_append hi with hi | hi
    · exact hk i hi
    · refine ⟨s, ?_, hi⟩
      rw [hi.file, Library.filename_of_scope? hs]
      exact hs
  · intro k hk i hi
    rw [present_skip] at hi
    exact hk i hi

/-- Every include of a scope, appended ones too, describes the scope that the library had of its
file when the scope was built. -/
theorem Scope.Built.described {s : Scope} {o : Options} {t : Tree} {l : Library} {k : Linkage}
    (h : s.Built o t l k) : s.linkage.Described o.language l :=
  h.lasting (Linkage.lasting_described o.language l) fun _ hi => absurd hi List.not_mem_nil

end IdlScope

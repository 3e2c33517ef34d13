import IdlScope.Proofs.Names
import IdlScope.Scope.Linkage
import Mathlib.Data.List.Nodup
import Mathlib.Order.Defs.PartialOrder

/-!
# Imports — how the linkage of a file grows

While a file is built, its linkage only grows: it gets includes at the end and imports with
new aliases, and marks go on and off. Two facts about this growth carry everything that is
said about the imports of a finished file:

* **`k ≤ l`** on linkages — the order of growth: an alias that a path has once is its alias for
  good, and no include leaves its place.
* **`Linkage.Tidy`** — paths and aliases never repeat, every include of another package has
  the alias of its path, and every import has such an include.

Marks are read as the set of aliases in use: asking for a qualifier adds exactly that alias
(`mem_usedNames_qualifierFor`), and pruning keeps exactly the aliases that are mentioned
(`mem_usedNames_prune`).
-/

namespace IdlScope

namespace ImportTable

/-- No path and no alias comes twice. -/
structure Distinct (t : ImportTable) : Prop where
  paths : (t.imports.map Import.path).Nodup
  names : (t.imports.map Import.name).Nodup

/-- The aliases of the imports in use. -/
def usedNames (t : ImportTable) : List String :=
  t.used.map Import.name

theorem mem_usedNames {t : ImportTable} {a : String} :
    a ∈ t.usedNames ↔ ∃ i ∈ t.imports, i.used = true ∧ i.name = a := by
  simp [usedNames, used, and_assoc]

theorem distinct_empty : empty.Distinct := by
  constructor <;> simp [empty]

/-! ## Marks -/

@[simp] theorem alias?_setUsed (t : ImportTable) (path other : String) (used : Bool) :
    (t.setUsed path used).alias? other = t.alias? other := by
  simp only [alias?, import?, setUsed, List.find?_map, Option.map_map]
  have hpath : ((fun i : Import => i.path == other) ∘
      fun i => if i.path = path then { i with used := used } else i) =
      fun i => i.path == other := by
    funext i
    simp only [Function.comp_apply]
    split <;> rfl
  have hname : (Import.name ∘
      fun i : Import => if i.path = path then { i with used := used } else i) = Import.name := by
    funext i
    simp only [Function.comp_apply]
    split <;> rfl
  rw [hpath, hname]

theorem Distinct.setUsed {t : ImportTable} (h : t.Distinct) (path : String) (used : Bool) :
    (t.setUsed path used).Distinct := by
  have hsame : ∀ (f : Import → String), (∀ i u, f { i with used := u } = f i) →
      (t.setUsed path used).imports.map f = t.imports.map f := by
    intro f hf
    rw [ImportTable.setUsed, List.map_map]
    apply List.map_congr_left
    intro i _
    simp only [Function.comp_apply]
    split
    · exact hf i used
    · rfl
  constructor
  · rw [hsame Import.path fun _ _ => rfl]
    exact h.paths
  · rw [hsame Import.name fun _ _ => rfl]
    exact h.names

theorem alias?_eq_some {t : ImportTable} (h : t.Distinct) {path name : String} :
    t.alias? path = some name ↔ ∃ i ∈ t.imports, i.path = path ∧ i.name = name := by
  simp only [alias?, import?, Option.map_eq_some_iff]
  constructor
  · rintro ⟨i, hi, rfl⟩
    exact ⟨i, List.mem_of_find?_eq_some hi, by simpa using List.find?_some hi, rfl⟩
  · rintro ⟨i, hi, rfl, rfl⟩
    cases hfind : t.imports.find? (·.path == i.path) with
    | none =>
        have := List.find?_eq_none.mp hfind i hi
        simp at this
    | some j =>
        have hj : j.path = i.path := by simpa using List.find?_some hfind
        have := List.inj_on_of_nodup_map h.paths (List.mem_of_find?_eq_some hfind) hi hj
        exact ⟨j, rfl, by rw [this]⟩

/-- An alias stands for one import. -/
theorem Distinct.eq_of_name {t : ImportTable} (h : t.Distinct) {i j : Import}
    (hi : i ∈ t.imports) (hj : j ∈ t.imports) (hname : i.name = j.name) : i = j :=
  List.inj_on_of_nodup_map h.names hi hj hname

/-- Marking a path used adds its alias to the aliases in use. -/
theorem mem_usedNames_markUsed {t : ImportTable} (h : t.Distinct) {path name : String}
    (halias : t.alias? path = some name) {a : String} :
    a ∈ (t.markUsed path).usedNames ↔ a ∈ t.usedNames ∨ a = name := by
  obtain ⟨i, hi, hpath, hname⟩ := (alias?_eq_some h).mp halias
  simp only [mem_usedNames, markUsed, setUsed, List.mem_map]
  constructor
  · rintro ⟨_, ⟨j, hj, rfl⟩, hused, rfl⟩
    -- the import of the path can only be `i`, and all others are as they were
    by_cases hjp : j.path = path
    · have := List.inj_on_of_nodup_map h.paths hj hi (hjp.trans hpath.symm)
      subst this
      simp [hjp, hname]
    · rw [if_neg hjp] at hused ⊢
      exact Or.inl ⟨j, hj, hused, rfl⟩
  · rintro (⟨j, hj, hused, rfl⟩ | rfl)
    · refine ⟨_, ⟨j, hj, rfl⟩, ?_, ?_⟩ <;> split <;> first | rfl | exact hused
    · exact ⟨_, ⟨i, hi, rfl⟩, by simp [hpath], by simp [hpath, hname]⟩

/-- Marking paths unused one after another keeps the marks of all other paths. -/
theorem imports_foldl_markUnused (paths : List String) (t : ImportTable) :
    (paths.foldl markUnused t).imports =
      t.imports.map fun i => if i.path ∈ paths then { i with used := false } else i := by
  induction paths generalizing t with
  | nil => simp
  | cons path paths ih =>
      rw [List.foldl_cons, ih, markUnused, setUsed, List.map_map]
      apply List.map_congr_left
      intro i _
      by_cases h : i.path = path <;> by_cases h' : i.path ∈ paths <;>
        simp_all [Function.comp_apply]

/-! ## Registering -/

theorem alias?_add (t : ImportTable) (preferred path other : String) :
    (t.add preferred path).2.alias? other =
      if other = path then some (t.add preferred path).1 else t.alias? other := by
  rw [add]
  cases halias : t.alias? path with
  | some name =>
      simp only [markUsed, alias?_setUsed]
      split
      · next h => rw [h, halias]
      · rfl
  | none =>
      simp only [alias?, import?, List.find?_append, List.find?_singleton]
      by_cases h : other = path
      · subst h
        have hnone : t.imports.find? (·.path == other) = none := by
          simpa [alias?, import?] using halias
        simp [hnone]
      · have hne : (path == other) = false := by simpa using Ne.symm h
        simp [h, hne]

theorem Distinct.add {t : ImportTable} (h : t.Distinct) (preferred path : String) :
    (t.add preferred path).2.Distinct := by
  rw [ImportTable.add]
  cases halias : t.alias? path with
  | some name => exact h.setUsed path true
  | none =>
      -- the path has no import yet, and the search ends at a free alias
      have hpath : path ∉ t.imports.map Import.path := by
        intro hmem
        obtain ⟨i, hi, hip⟩ := List.mem_map.mp hmem
        rw [(alias?_eq_some h).mpr ⟨i, hi, hip, rfl⟩] at halias
        cases halias
      have hname : t.aliases.fresh preferred ∉ t.imports.map Import.name := by
        have := NameTable.fresh_not_mem_names t.aliases preferred
        simpa [NameTable.names, aliases] using this
      constructor
      · simpa [List.nodup_append] using ⟨h.paths, fun i hi hip =>
          hpath (List.mem_map.mpr ⟨i, hi, hip⟩)⟩
      · simpa [List.nodup_append] using ⟨h.names, fun i hi hin =>
          hname (List.mem_map.mpr ⟨i, hi, hin⟩)⟩

/-- Registering adds the alias that it gives to the aliases in use. -/
theorem mem_usedNames_add {t : ImportTable} (h : t.Distinct) {preferred path a : String} :
    a ∈ (t.add preferred path).2.usedNames ↔
      a ∈ t.usedNames ∨ a = (t.add preferred path).1 := by
  rw [add]
  cases halias : t.alias? path with
  | some name => exact mem_usedNames_markUsed h halias
  | none =>
      simp only [mem_usedNames, List.mem_append, List.mem_singleton]
      constructor
      · rintro ⟨i, hi | rfl, hused, rfl⟩
        · exact Or.inl ⟨i, hi, hused, rfl⟩
        · exact Or.inr rfl
      · rintro (⟨i, hi, hused, rfl⟩ | rfl)
        · exact ⟨i, Or.inl hi, hused, rfl⟩
        · exact ⟨_, Or.inr rfl, rfl, rfl⟩

end ImportTable

namespace Linkage

/-! ## Growth -/

/-- A linkage grows by includes at the end and by new aliases. Its package stays. -/
instance : Preorder Linkage where
  le k l := k.package = l.package ∧ k.includes <+: l.includes ∧
    ∀ path name, k.imports.alias? path = some name → l.imports.alias? path = some name
  le_refl k := ⟨rfl, List.prefix_refl _, fun _ _ h => h⟩
  le_trans k l m hkl hlm :=
    ⟨hkl.1.trans hlm.1, hkl.2.1.trans hlm.2.1,
      fun path name h => hlm.2.2 path name (hkl.2.2 path name h)⟩

variable (g : Language) (d : Document) (p : Package)

theorem le_append (l : Linkage) : l ≤ (l.append g d p).2 := by
  rw [append]
  dsimp only
  split
  · exact ⟨rfl, List.prefix_append _ _, fun _ _ h => h⟩
  · refine ⟨rfl, List.prefix_append _ _, ?_⟩
    intro path name h
    rw [ImportTable.alias?_add]
    split
    · next heq =>
      subst heq
      simp [ImportTable.add, h]
    · exact h

theorem le_skip (l : Linkage) : l ≤ l.skip :=
  ⟨rfl, List.prefix_append _ _, fun _ _ h => h⟩

/-- Asking for a qualifier changes nothing, marks an import, or appends a file of another package
whose path has no alias yet. -/
theorem qualifierFor_cases (l : Linkage) :
    (l.qualifierFor g d p).2 = l ∨
      (l.qualifierFor g d p).2 =
        { l with imports := l.imports.markUsed (g.importPath l.package p) } ∨
      (p.path ≠ l.package.path ∧ l.imports.alias? (g.importPath l.package p) = none ∧
        (l.qualifierFor g d p).2 = (l.append g d p).2) := by
  rw [qualifierFor]
  split
  · exact .inl rfl
  · next hp =>
    dsimp only
    split
    · exact .inr (.inl rfl)
    · next halias => exact .inr (.inr ⟨hp, halias, rfl⟩)

theorem le_qualifierFor (l : Linkage) : l ≤ (l.qualifierFor g d p).2 := by
  rcases qualifierFor_cases g d p l with h | h | ⟨-, -, h⟩
  · rw [h]
  · rw [h]
    exact ⟨rfl, List.prefix_refl _, fun path name h => by simpa [ImportTable.markUsed] using h⟩
  · rw [h]
    exact le_append g d p l

variable {p} in
/-- Files of one package do not qualify each other's names. -/
theorem qualifierFor_of_eq {l : Linkage} (hp : p.path = l.package.path) :
    l.qualifierFor g d p = (none, l) := by
  rw [qualifierFor, if_pos hp]

variable {p} in
/-- A file of another package is qualified by the alias that its path has from then on. -/
theorem qualifierFor_of_ne {l : Linkage} (hp : p.path ≠ l.package.path) :
    ∃ name, (l.qualifierFor g d p).1 = some name ∧
      (l.qualifierFor g d p).2.imports.alias? (g.importPath l.package p) = some name := by
  rw [qualifierFor, if_neg hp]
  dsimp only
  cases halias : l.imports.alias? (g.importPath l.package p) with
  | some name => exact ⟨name, rfl, by simpa [ImportTable.markUsed] using halias⟩
  | none =>
      refine ⟨_, rfl, ?_⟩
      rw [append]
      dsimp only
      rw [if_neg hp, ImportTable.alias?_add, if_pos rfl]

theorem imports_prune (l : Linkage) (mentioned : List String) :
    (l.prune mentioned).imports = ((l.present.filter fun i =>
      !i.samePackage && !mentioned.contains i.packageName).map Include.path).foldl
        ImportTable.markUnused l.imports := by
  rw [List.foldl_map]
  rfl

theorem le_prune (l : Linkage) (mentioned : List String) : l ≤ l.prune mentioned := by
  refine ⟨rfl, List.prefix_refl _, ?_⟩
  rw [imports_prune]
  generalize List.map Include.path _ = paths
  intro path name h
  -- marks go off one path at a time, and aliases do not depend on marks
  induction paths generalizing l with
  | nil => exact h
  | cons q paths ih =>
      refine ih { l with imports := l.imports.markUnused q } ?_
      simpa [ImportTable.markUnused] using h

/-! ## Tidiness -/

/-- No alias stands for two paths, every include of another package has the alias of its
path, and every import is there for such an include. -/
structure Tidy (l : Linkage) : Prop where
  distinct : l.imports.Distinct
  alias_of_include : ∀ i ∈ l.present, i.samePackage = false →
    l.imports.alias? i.path = some i.packageName
  include_of_import : ∀ m ∈ l.imports.imports,
    ∃ i ∈ l.present, i.samePackage = false ∧ i.path = m.path

theorem tidy_new (package : Package) : (new package).Tidy := by
  refine ⟨ImportTable.distinct_empty, ?_, ?_⟩ <;> simp [new, present, ImportTable.empty]

/-- An include that was appended is there with all that were there before. -/
theorem mem_present_concat {l : Linkage} {i j : Include} {imports : ImportTable} :
    j ∈ present { l with includes := l.includes ++ [some i], imports := imports } ↔
      j ∈ l.present ∨ j = i := by
  simp [present]

@[simp] theorem present_skip (l : Linkage) : l.skip.present = l.present := by
  simp [skip, present]

/-- What is appended is an include of the file. -/
theorem mem_present_append {l : Linkage} {i : Include} (h : i ∈ (l.append g d p).2.present) :
    i ∈ l.present ∨ i.file = d.filename := by
  rw [append] at h
  dsimp only at h
  split at h
  all_goals exact (mem_present_concat.mp h).imp_right fun heq => congrArg Include.file heq

/-- Asking for a qualifier appends an include of the file at most. -/
theorem mem_present_qualifierFor {l : Linkage} {i : Include}
    (h : i ∈ (l.qualifierFor g d p).2.present) : i ∈ l.present ∨ i.file = d.filename := by
  rcases qualifierFor_cases g d p l with hcase | hcase | ⟨-, -, hcase⟩
  · exact .inl (hcase ▸ h)
  · rw [hcase] at h
    exact .inl h
  · exact mem_present_append g d p (hcase ▸ h)

theorem Tidy.skip {l : Linkage} (h : l.Tidy) : l.skip.Tidy := by
  refine ⟨h.distinct, ?_, ?_⟩
  · rw [present_skip]
    exact h.alias_of_include
  · rw [present_skip]
    exact h.include_of_import

theorem Tidy.append {l : Linkage} (h : l.Tidy) : (l.append g d p).2.Tidy := by
  rw [Linkage.append]
  dsimp only
  split
  · -- a file of the same package needs no import
    refine ⟨h.distinct, ?_, ?_⟩
    · intro i hi hsame
      rcases mem_present_concat.mp hi with hi | rfl
      · exact h.alias_of_include i hi hsame
      · cases hsame
    · intro m hm
      obtain ⟨i, hi, hi'⟩ := h.include_of_import m hm
      exact ⟨i, mem_present_concat.mpr (Or.inl hi), hi'⟩
  · -- any other file gets the alias under which its path is registered
    refine ⟨h.distinct.add _ _, ?_, ?_⟩
    · intro i hi hsame
      rw [ImportTable.alias?_add]
      rcases mem_present_concat.mp hi with hi | rfl
      · have halias := h.alias_of_include i hi hsame
        split
        · next heq =>
          rw [heq] at halias
          simp [ImportTable.add, halias]
        · exact halias
      · rw [if_pos rfl]
    · intro m hm
      rw [ImportTable.add] at hm
      split at hm
      · next name halias =>
        obtain ⟨j, hj, rfl⟩ := List.mem_map.mp hm
        obtain ⟨i, hi, hi'⟩ := h.include_of_import j hj
        refine ⟨i, mem_present_concat.mpr (Or.inl hi), hi'.1, ?_⟩
        split <;> exact hi'.2
      · next halias =>
        rcases List.mem_append.mp hm with hm | hm
        · obtain ⟨i, hi, hi'⟩ := h.include_of_import m hm
          exact ⟨i, mem_present_concat.mpr (Or.inl hi), hi'⟩
        · rw [List.mem_singleton.mp hm]
          exact ⟨_, mem_present_concat.mpr (Or.inr rfl), rfl, rfl⟩

theorem Tidy.setUsed {l : Linkage} (h : l.Tidy) (path : String) (used : Bool) :
    Tidy { l with imports := l.imports.setUsed path used } := by
  refine ⟨h.distinct.setUsed path used, ?_, ?_⟩
  · intro i hi hsame
    rw [ImportTable.alias?_setUsed]
    exact h.alias_of_include i hi hsame
  · intro m hm
    obtain ⟨j, hj, rfl⟩ := List.mem_map.mp hm
    obtain ⟨i, hi, hsame, hpath⟩ := h.include_of_import j hj
    refine ⟨i, hi, hsame, ?_⟩
    split <;> exact hpath

theorem Tidy.qualifierFor {l : Linkage} (h : l.Tidy) : (l.qualifierFor g d p).2.Tidy := by
  rcases qualifierFor_cases g d p l with hcase | hcase | ⟨-, -, hcase⟩ <;> rw [hcase]
  · exact h
  · exact h.setUsed _ true
  · exact h.append g d p

theorem Tidy.prune {l : Linkage} (h : l.Tidy) (mentioned : List String) :
    (l.prune mentioned).Tidy := by
  have hpaths : ∀ (paths : List String) (k : Linkage), k.Tidy →
      Tidy { k with imports := paths.foldl ImportTable.markUnused k.imports } := by
    intro paths
    induction paths with
    | nil => exact fun k hk => hk
    | cons path paths ih => exact fun k hk => ih _ (hk.setUsed path false)
  have hprune : l.prune mentioned = { l with imports := (l.prune mentioned).imports } := rfl
  rw [hprune, imports_prune]
  exact hpaths _ l h

/-! ## Aliases in use -/

/-- The aliases of the imports in use. -/
def usedNames (l : Linkage) : List String :=
  l.imports.usedNames

theorem mem_usedNames_append {l : Linkage} (h : l.Tidy) (hp : p.path ≠ l.package.path)
    {a : String} :
    a ∈ (l.append g d p).2.usedNames ↔ a ∈ l.usedNames ∨ a = (l.append g d p).1 := by
  rw [append, usedNames]
  dsimp only
  rw [if_neg hp]
  exact ImportTable.mem_usedNames_add h.distinct

/-- Asking for a qualifier puts it in use and leaves all other aliases as they are. -/
theorem mem_usedNames_qualifierFor {l : Linkage} (h : l.Tidy) {a : String} :
    a ∈ (l.qualifierFor g d p).2.usedNames ↔
      a ∈ l.usedNames ∨ (l.qualifierFor g d p).1 = some a := by
  rw [qualifierFor]
  split
  · simp
  · next hp =>
    dsimp only
    split
    · next name halias =>
      rw [Option.some.injEq, eq_comm (a := name)]
      exact ImportTable.mem_usedNames_markUsed h.distinct halias
    · rw [mem_usedNames_append g d p h hp, Option.some.injEq, eq_comm]

/-- Pruning keeps exactly the aliases that are mentioned. -/
theorem mem_usedNames_prune {l : Linkage} (h : l.Tidy) (mentioned : List String) {a : String} :
    a ∈ (l.prune mentioned).usedNames ↔ a ∈ l.usedNames ∧ a ∈ mentioned := by
  rw [usedNames, imports_prune]
  generalize hpaths : List.map Include.path _ = paths
  -- the paths that lose their marks are those of the imports that are not mentioned
  have hstale : ∀ m ∈ l.imports.imports, m.path ∈ paths ↔ m.name ∉ mentioned := by
    intro m hm
    have hname : l.imports.alias? m.path = some m.name :=
      (ImportTable.alias?_eq_some h.distinct).mpr ⟨m, hm, rfl, rfl⟩
    subst hpaths
    simp only [List.mem_map, List.mem_filter, Bool.and_eq_true, Bool.not_eq_true',
      List.contains_eq_mem, decide_eq_false_iff_not]
    constructor
    · rintro ⟨i, ⟨hi, hsame, hnot⟩, hpath⟩
      have := h.alias_of_include i hi hsame
      rw [hpath, hname, Option.some.injEq] at this
      rwa [this]
    · intro hnot
      obtain ⟨i, hi, hsame, hpath⟩ := h.include_of_import m hm
      have := h.alias_of_include i hi hsame
      rw [hpath, hname, Option.some.injEq] at this
      exact ⟨i, ⟨hi, hsame, by rwa [← this]⟩, hpath⟩
  rw [ImportTable.mem_usedNames, ImportTable.imports_foldl_markUnused, usedNames,
    ImportTable.mem_usedNames]
  constructor
  · rintro ⟨_, hi, hused, rfl⟩
    obtain ⟨m, hm, rfl⟩ := List.mem_map.mp hi
    by_cases hp : m.path ∈ paths
    · rw [if_pos hp] at hused
      cases hused
    · rw [if_neg hp] at hused ⊢
      refine ⟨⟨m, hm, hused, rfl⟩, ?_⟩
      by_contra hnot
      exact hp ((hstale m hm).mpr hnot)
  · rintro ⟨⟨m, hm, hused, rfl⟩, hmem⟩
    have hp : m.path ∉ paths := fun hp => (hstale m hm).mp hp hmem
    exact ⟨m, List.mem_map.mpr ⟨m, hm, if_neg hp⟩, hused, rfl⟩

end Linkage

end IdlScope

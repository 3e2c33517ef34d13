import IdlScope.Scope.Resolution

/-!
# Reach — the files that includes lead to

A place looks names up in the files that it can see. Seeing is spelled out here apart from
the search that lists them:

* **`Library.Leads`** — includes lead to the files they are of, and to everything that the
  includes of these files lead to.
* **`Library.Reaches`** — a place reaches itself and the files that its includes lead to.
* **`Library.reaches_of_declaration?`**, **`reaches_of_structureOf?`** — whatever a look-up
  finds, it finds at a place that is reached.
-/

namespace IdlScope

namespace Library

variable {l : Library}

/-! ## What includes lead to -/

/-- The includes lead to the file: one of them is of it, or of a file whose includes lead to
it. -/
inductive Leads (l : Library) : List Include → String → Prop
  | direct {is : List Include} {i : Include} (hi : i ∈ is) : Leads l is i.file
  | through {is : List Include} {i : Include} {q : Place} {file : String} (hi : i ∈ is)
    (hq : l.place? i.file = some q) (h : Leads l q.directory.present file) : Leads l is file

namespace Leads

variable {is js : List Include} {file other : String}

/-- What a file leads to that is led to is led to as well. -/
theorem step {q : Place} (h : l.Leads is file) (hq : l.place? file = some q)
    (h' : l.Leads q.directory.present other) : l.Leads is other := by
  induction h with
  | direct hi => exact .through hi hq h'
  | through hi hr _ ih => exact .through hi hr (ih hq)

/-- Includes of files that are led to lead nowhere else. -/
theorem trans (hjs : ∀ j ∈ js, l.Leads is j.file) (h : l.Leads js file) : l.Leads is file := by
  cases h with
  | direct hj => exact hjs _ hj
  | through hj hq h => exact (hjs _ hj).step hq h

theorem mono (hsub : ∀ i ∈ is, i ∈ js) (h : l.Leads is file) : l.Leads js file :=
  trans (fun _ hi => .direct (hsub _ hi)) h

end Leads

/-! ## What the search lists -/

theorem mem_unseen {seen : List String} {layer : List Include} {i : Include}
    (h : i ∈ unseen seen layer) : i ∈ layer ∧ i.file ∉ seen := by
  induction layer generalizing seen with
  | nil => exact absurd h List.not_mem_nil
  | cons j js ih =>
      rw [unseen] at h
      split at h
      · exact ⟨List.mem_cons_of_mem _ (ih h).1, (ih h).2⟩
      · next hj =>
        rcases List.mem_cons.mp h with rfl | h
        · exact ⟨List.mem_cons_self, by simpa using hj⟩
        · exact ⟨List.mem_cons_of_mem _ (ih h).1,
            fun hs => (ih h).2 (List.mem_cons_of_mem _ hs)⟩

/-- What is listed has a scope, and the layer leads to it. -/
theorem leads_of_mem_layers {n : Nat} {seen : List String} {layer : List Include} {r : Reached}
    (h : r ∈ layers l n seen layer) :
    l.place? r.link.file = some r.place ∧ l.Leads layer r.link.file := by
  induction n generalizing seen layer with
  | zero => exact absurd h List.not_mem_nil
  | succ n ih =>
      have hfirst : ∀ r ∈ (unseen seen layer).filterMap l.follow?,
          r.link ∈ layer ∧ l.place? r.link.file = some r.place := by
        intro r hr
        obtain ⟨i, hi, hr⟩ := List.mem_filterMap.mp hr
        obtain ⟨q, hq, rfl⟩ := Option.map_eq_some_iff.mp hr
        exact ⟨(mem_unseen hi).1, hq⟩
      rcases List.mem_append.mp h with h | h
      · obtain ⟨hlink, hplace⟩ := hfirst r h
        exact ⟨hplace, .direct hlink⟩
      · obtain ⟨hplace, hleads⟩ := ih h
        refine ⟨hplace, hleads.trans fun j hj => ?_⟩
        obtain ⟨r', hr', hj⟩ := List.mem_flatMap.mp hj
        obtain ⟨hlink, hplace'⟩ := hfirst r' hr'
        exact .through hlink hplace' (.direct hj)

/-! ## Where look-ups go -/

/-- The place itself, or the place of a file that its includes lead to. -/
def Reaches (l : Library) (p q : Place) : Prop :=
  q = p ∨ ∃ file, l.place? file = some q ∧ l.Leads p.directory.present file

section Paths

variable {p q : Place}

theorem reaches_of_mem_reach {r : Reached} (h : r ∈ l.reach p) : l.Reaches p r.place :=
  .inr ⟨r.link.file, leads_of_mem_layers h⟩

theorem reaches_of_mem_pathOf {qualifier : Option String} {bare : String} {probe : Probe}
    (h : probe ∈ l.pathOf p qualifier bare) : l.Reaches p probe.place := by
  unfold pathOf at h
  split at h
  · rcases List.mem_cons.mp h with rfl | h
    · exact .inl rfl
    · obtain ⟨r, hr, rfl⟩ := List.mem_map.mp h
      exact reaches_of_mem_reach hr
  · rcases List.mem_append.mp h with h | h
    · obtain ⟨r, hr, rfl⟩ := List.mem_map.mp h
      exact reaches_of_mem_reach (List.mem_filter.mp hr).1
    · split at h
      · rw [List.mem_singleton.mp h]
        exact .inl rfl
      · exact absurd h List.not_mem_nil

/-- A reference counts the includes that are there. -/
theorem mem_present_of_includeAt? {d : Directory} {index : Int} {i : Include}
    (h : d.includeAt? index = some i) : i ∈ d.present := by
  rw [Directory.includeAt?] at h
  split at h
  · cases h
  · exact List.mem_filterMap.mpr ⟨_, List.mem_of_getElem? (Option.join_eq_some_iff.mp h), rfl⟩

theorem reaches_of_referred? {r : Reference} (h : l.referred? p r = some q) : l.Reaches p q := by
  obtain ⟨i, hi, hq⟩ := Option.bind_eq_some_iff.mp h
  exact .inr ⟨i.file, hq, .direct (mem_present_of_includeAt? hi)⟩

theorem mem_of_first? {α : Type} {ask : Directory → String → Option α}
    {path : List Probe} {q : Place} {a : α} (h : Probe.first? ask path = some (q, a)) :
    ∃ probe ∈ path, probe.place = q ∧ ask q.directory probe.key = some a := by
  induction path with
  | nil => cases h
  | cons probe path ih =>
      rw [Probe.first?] at h
      split at h
      · next b hb =>
        obtain ⟨rfl, rfl⟩ := Prod.mk.inj (Option.some.inj h)
        exact ⟨probe, List.mem_cons_self, rfl, hb⟩
      · obtain ⟨probe', hmem, hprobe⟩ := ih h
        exact ⟨probe', List.mem_cons_of_mem _ hmem, hprobe⟩

/-- A declaration is found at a place that is reached, among the names declared there. -/
theorem reaches_of_declaration? {name : String} {reference : Option Reference}
    {accept : DeclKind → Bool} {d : Declared}
    (h : l.declaration? p name reference accept = some (q, d)) :
    l.Reaches p q ∧ ∃ key, q.directory.declared.get? key = some d := by
  obtain ⟨probe, hmem, rfl, hd⟩ := mem_of_first? h
  refine ⟨?_, probe.key, (Option.filter_eq_some_iff.mp hd).1⟩
  rcases List.mem_append.mp hmem with hmem | hmem
  · rw [Option.mem_toList] at hmem
    obtain ⟨r, _, hr⟩ := Option.bind_eq_some_iff.mp hmem
    obtain ⟨q, hq, hr⟩ := Option.bind_eq_some_iff.mp hr
    rw [← Option.some.inj hr]
    exact reaches_of_referred? hq
  · exact reaches_of_mem_pathOf hmem

/-- A structure is found at a place that is reached. -/
theorem reaches_of_structureOf? {t : IdlType} {s : StructDecl}
    (h : l.structureOf? p t = some (q, s)) : l.Reaches p q := by
  obtain ⟨probe, hmem, rfl, _⟩ := mem_of_first? h
  rw [structurePath] at hmem
  dsimp only at hmem
  -- a look-up goes to the file referred to, to the files in reach, and to the place itself
  split at hmem
  · exact reaches_of_mem_pathOf hmem
  · rcases List.mem_append.mp hmem with hmem | hmem
    · rcases List.mem_append.mp hmem with hmem | hmem
      · split at hmem
        · next q hq =>
          have hreaches := reaches_of_referred? hq
          simp only [List.mem_cons, List.not_mem_nil, or_false] at hmem
          rcases hmem with rfl | rfl <;> exact hreaches
        · exact absurd hmem List.not_mem_nil
      · obtain ⟨r, hr, rfl⟩ := List.mem_map.mp hmem
        exact reaches_of_mem_reach hr
    · rw [List.mem_singleton.mp hmem]
      exact .inl rfl

end Paths

end Library

end IdlScope

import IdlScope.Proofs.FieldJobs
import IdlScope.Proofs.Linkages
import IdlScope.Scope.Tasks

/-!
# Caches — numbers and scopes in step

A cache keeps numbers by name, scopes by number and the next free number apart. What holds of
them at all times is told here for one operation after the other:

* **`Cache.Numbered`** — the numbers count up from zero in the order of the names, one a file.
* **`SharedScope.Stands`** — the includes of a scope lead, one by one, to scopes that stand before
  it, and the scope was finished on top of them.
* **`Cache.InOrder`** — both together, with every scope under the number of its file.
* **`Cache.InOrder.fileId`**, **`Cache.InOrder.insert`** — giving a number and storing a scope keep
  a cache in order and take nothing back.
-/

namespace IdlScope

/-! ## Shared scopes -/

namespace SharedScope

/-- What a shared scope inherits from the ones it holds, every shared scope has. -/
@[elab_as_elim]
theorem induct {P : SharedScope → Prop}
    (step : ∀ file scope holds, (∀ s ∈ holds, P s) → P (mk file scope holds)) (s : SharedScope) :
    P s :=
  @SharedScope.rec P (fun ss => ∀ s ∈ ss, P s) (fun file scope holds ih => step file scope holds ih)
    (fun _ h => absurd h List.not_mem_nil)
    (fun _ _ hs hss u hu => by
      rcases List.mem_cons.mp hu with rfl | hu
      · exact hs
      · exact hss u hu) s

theorem allOf_eq_flatMap (ss : List SharedScope) : allOf ss = ss.flatMap all := by
  induction ss with
  | nil => rfl
  | cons s ss ih => rw [allOf, ih, List.flatMap_cons]

theorem all_eq_cons (s : SharedScope) : s.all = s :: allOf s.holds := by
  cases s
  rfl

theorem mem_all_self (s : SharedScope) : s ∈ s.all := by
  rw [all_eq_cons]
  exact List.mem_cons_self

theorem mem_allOf {ss : List SharedScope} {u : SharedScope} :
    u ∈ allOf ss ↔ ∃ s ∈ ss, u ∈ s.all := by
  rw [allOf_eq_flatMap, List.mem_flatMap]

theorem mem_allOf_of_mem {ss : List SharedScope} {s : SharedScope} (h : s ∈ ss) : s ∈ allOf ss :=
  mem_allOf.mpr ⟨s, h, s.mem_all_self⟩

/-- What is held by something that is held, is held. -/
theorem holds_subset_all {s u : SharedScope} (hu : u ∈ s.all) : ∀ v ∈ u.holds, v ∈ s.all := by
  induction s using SharedScope.induct with
  | step file scope holds ih =>
      intro v hv
      rw [all_eq_cons] at hu ⊢
      refine List.mem_cons_of_mem _ ?_
      rcases List.mem_cons.mp hu with rfl | hu
      · exact mem_allOf_of_mem hv
      · obtain ⟨w, hw, hu⟩ := mem_allOf.mp hu
        exact mem_allOf.mpr ⟨w, hw, ih w hw hu v hv⟩

theorem scope?_library (ss : List SharedScope) (file : String) :
    (library ss).scope? file = (find? ss file).map scope := by
  rw [Library.scope?, library, List.find?_map]
  rfl

end SharedScope

/-! ## Numbers -/

/-- In a list without repeated keys a look-up finds every entry. -/
theorem lookup_eq_some_iff_mem {α β : Type} [BEq α] [LawfulBEq α] {entries : List (α × β)}
    (h : (entries.map Prod.fst).Nodup) {key : α} {value : β} :
    entries.lookup key = some value ↔ (key, value) ∈ entries := by
  refine ⟨mem_of_lookup, fun hmem => ?_⟩
  induction entries with
  | nil => exact absurd hmem List.not_mem_nil
  | cons e es ih =>
      obtain ⟨k, v⟩ := e
      rw [List.map_cons, List.nodup_cons] at h
      rcases List.mem_cons.mp hmem with heq | hmem
      · cases heq
        exact List.lookup_cons_self
      · have hne : (key == k) = false := by
          refine beq_eq_false_iff_ne.mpr fun heq => h.1 ?_
          exact List.mem_map.mpr ⟨(key, value), hmem, heq⟩
        rw [List.lookup_cons, hne]
        exact ih h.2 hmem

/-- The files after one more was met. -/
def listed (files : List String) (file : String) : List String :=
  if file ∈ files then files else files ++ [file]

namespace Cache

/-- The numbers that were given are the places of the files, and the next one is free. -/
structure Numbered (c : Cache) : Prop where
  ids : c.paths.entries.map (·.2.index) = List.range c.files.length
  nodup : c.files.Nodup
  next : c.nextId = c.files.length

variable {c c' : Cache}

theorem Numbered.empty : Numbered .empty := ⟨rfl, List.nodup_nil, rfl⟩

/-- A number leads back to the one file that has it. -/
theorem Numbered.get?_eq_some_iff (h : c.Numbered) {path : String} {id : FileId} :
    c.paths.get? path = some id ↔ c.files[id.index]? = some path := by
  have hnodup : (c.paths.entries.map Prod.fst).Nodup := h.nodup
  have hplace : ∀ (n : Nat) (e : String × FileId), c.paths.entries[n]? = some e →
      e.2.index = n := by
    intro n e he
    have hmap := congrArg (·[n]?) h.ids
    simp only [List.getElem?_map, he, Option.map_some] at hmap
    have hn : n < c.files.length := by
      rw [files, List.length_map]
      exact (List.getElem?_eq_some_iff.mp he).1
    rw [List.getElem?_range hn] at hmap
    exact Option.some.inj hmap
  rw [Table.get?, lookup_eq_some_iff_mem hnodup, files, List.getElem?_map]
  constructor
  · intro hmem
    obtain ⟨n, hn⟩ := List.getElem?_of_mem hmem
    rw [hplace n _ hn, hn]
    rfl
  · intro hget
    obtain ⟨e, he, rfl⟩ := Option.map_eq_some_iff.mp hget
    have hid : e.2 = id := by
      cases hid : e.2
      have := hplace _ e he
      rw [hid] at this
      cases id
      exact congrArg FileId.mk this
    rw [← hid]
    exact List.mem_of_getElem? he

/-- Files keep different numbers. -/
theorem Numbered.inj (h : c.Numbered) {path path' : String} {id : FileId}
    (hpath : c.paths.get? path = some id) (hpath' : c.paths.get? path' = some id) :
    path = path' :=
  Option.some.inj ((h.get?_eq_some_iff.mp hpath).symm.trans (h.get?_eq_some_iff.mp hpath'))

/-- Numbers and scopes are only ever added, each at the end. -/
instance : Preorder Cache where
  le c c' := c.paths.entries <+: c'.paths.entries ∧ c.scopes <+: c'.scopes
  le_refl _ := ⟨List.prefix_refl _, List.prefix_refl _⟩
  le_trans _ _ _ h h' := ⟨h.1.trans h'.1, h.2.trans h'.2⟩

theorem stored_prefix (h : c ≤ c') : c.stored <+: c'.stored := h.2.map _

/-- A file that has a number keeps it. -/
theorem get?_paths_mono (h : c ≤ c') {path : String} {id : FileId}
    (hpath : c.paths.get? path = some id) : c'.paths.get? path = some id := by
  obtain ⟨more, hmore⟩ := h.1
  rw [Table.get?, ← hmore, List.lookup_append,
    show c.paths.entries.lookup path = some id from hpath]
  rfl

/-- A file that has a scope keeps it. -/
theorem get?_mono (h : c ≤ c') {path : String} {s : SharedScope} (hs : c.get? path = some s) :
    c'.get? path = some s := by
  obtain ⟨id, hid, hlookup⟩ := Option.bind_eq_some_iff.mp hs
  obtain ⟨more, hmore⟩ := h.2
  rw [get?, get?_paths_mono h hid, Option.bind_some, ← hmore, List.lookup_append, hlookup]
  rfl

theorem get?_eq_none_mono (h : c ≤ c') {path : String} (hnone : c'.get? path = none) :
    c.get? path = none := by
  cases hs : c.get? path with
  | none => rfl
  | some s =>
      rw [get?_mono h hs] at hnone
      cases hnone

theorem fileId_of_some {path : String} {id : FileId} (h : c.paths.get? path = some id) :
    c.fileId path = (id, c) := by
  rw [fileId, h]

theorem fileId_of_none {path : String} (h : c.paths.get? path = none) :
    c.fileId path =
      (⟨c.nextId⟩, { c with paths := c.paths.set path ⟨c.nextId⟩, nextId := c.nextId + 1 }) := by
  rw [fileId, h]

theorem le_fileId (c : Cache) (path : String) : c ≤ (c.fileId path).2 := by
  cases h : c.paths.get? path with
  | some id => rw [fileId_of_some h]
  | none =>
      rw [fileId_of_none h]
      refine ⟨?_, List.prefix_refl _⟩
      rw [Table.entries_set_of_get?_eq_none h]
      exact List.prefix_append _ _

theorem scopes_fileId (c : Cache) (path : String) : (c.fileId path).2.scopes = c.scopes := by
  cases h : c.paths.get? path with
  | some id => rw [fileId_of_some h]
  | none => rw [fileId_of_none h]

theorem mem_files_iff {path : String} : path ∈ c.files ↔ (c.paths.get? path).isSome := by
  rw [Table.get?, List.lookup_isSome_iff, files, List.mem_map]
  refine exists_congr fun e => and_congr_right fun _ => ?_
  rw [beq_iff_eq, eq_comm]

/-- A file has the number that it is told. -/
theorem get?_fileId (c : Cache) (path : String) :
    (c.fileId path).2.paths.get? path = some (c.fileId path).1 := by
  cases h : c.paths.get? path with
  | some id => rw [fileId_of_some h, h]
  | none =>
      rw [fileId_of_none h]
      simp [Table.get?_set]

theorem files_fileId (c : Cache) (path : String) :
    (c.fileId path).2.files = listed c.files path := by
  rw [listed]
  cases h : c.paths.get? path with
  | some id => rw [fileId_of_some h, if_pos (mem_files_iff.mpr (by rw [h]; rfl))]
  | none =>
      rw [fileId_of_none h, if_neg (fun hmem => by simp [mem_files_iff, h] at hmem)]
      simp [files, Table.entries_set_of_get?_eq_none h]

theorem Numbered.fileId (h : c.Numbered) (path : String) : (c.fileId path).2.Numbered := by
  cases hpath : c.paths.get? path with
  | some id => rwa [fileId_of_some hpath]
  | none =>
      have hnew : path ∉ c.files := fun hmem => by simp [mem_files_iff, hpath] at hmem
      have hfiles := c.files_fileId path
      rw [listed, if_neg hnew] at hfiles
      constructor
      case ids =>
        rw [hfiles, fileId_of_none hpath, Table.entries_set_of_get?_eq_none hpath,
          List.map_append, h.ids, List.length_append, List.length_singleton,
          List.range_succ, ← h.next]
        rfl
      case nodup =>
        rw [hfiles]
        exact List.nodup_append.mpr ⟨h.nodup, List.nodup_singleton _, fun a ha b hb hab =>
          hnew (List.mem_singleton.mp hb ▸ hab ▸ ha)⟩
      case next =>
        rw [hfiles, fileId_of_none hpath, List.length_append, List.length_singleton, ← h.next]

end Cache

/-! ## Linked includes -/

namespace Linked

/-- Linking the includes of a document in order, each to a shared scope of its file, leads from
one state to another. -/
inductive Joins (g : Language) : List (Included Tree) → Linked → Linked → Prop
  | nil (k : Linked) : Joins g [] k k
  | used {path : String} {t : Tree} {is : List (Included Tree)} {k k' : Linked} {s : SharedScope}
    (hs : s.filename = t.filename) (h : Joins g is (k.append g s) k') :
    Joins g (⟨path, true, t⟩ :: is) k k'
  | unused {path : String} {t : Tree} {is : List (Included Tree)} {k k' : Linked}
    (h : Joins g is k.skip k') : Joins g (⟨path, false, t⟩ :: is) k k'

/-- What is held are scopes of the files that the includes are of. -/
def Aligned (k : Linked) : Prop :=
  List.Forall₂ (fun i (s : SharedScope) => i.file = s.filename) k.linkage.present k.holds

theorem Aligned.append {k : Linked} (h : k.Aligned) (g : Language) (s : SharedScope) :
    (k.append g s).Aligned := by
  obtain ⟨i, hincludes, hi⟩ := Linkage.includes_append g k.linkage s.scope
  have hpresent : (k.append g s).linkage.present = k.linkage.present ++ [i] := by
    rw [Linked.append, Linkage.present, hincludes, List.filterMap_append]
    rfl
  rw [Aligned, hpresent]
  exact List.rel_append h (.cons hi.file .nil)

theorem Aligned.skip {k : Linked} (h : k.Aligned) : k.skip.Aligned := by
  rw [Aligned, Linked.skip, Linkage.present_skip]
  exact h

namespace Joins

variable {g : Language} {is : List (Included Tree)} {k k' : Linked}

theorem aligned (h : Joins g is k k') (hk : k.Aligned) : k'.Aligned := by
  induction h with
  | nil => exact hk
  | used _ _ ih => exact ih (hk.append g _)
  | unused _ ih => exact ih hk.skip

theorem holds_prefix (h : Joins g is k k') : k.holds <+: k'.holds := by
  induction h with
  | nil => exact List.prefix_refl _
  | used _ _ ih => exact (List.prefix_append _ _).trans ih
  | unused _ ih => exact ih

/-- In a library that has the scopes that are held, the includes are linked. -/
theorem links (h : Joins g is k k') {l : Library}
    (hl : ∀ s ∈ k'.holds, l.scope? s.filename = some s.scope) :
    Linkage.Links l g is k.linkage k'.linkage := by
  induction h with
  | nil => exact .nil _
  | @used _ _ _ k _ s hs h ih =>
      refine .used ?_ (ih hl)
      rw [← hs]
      exact hl s (h.holds_prefix.subset (List.mem_append_right _ (List.mem_singleton_self s)))
  | unused _ ih => exact .unused (ih hl)

end Joins

end Linked

/-! ## Scopes that stand on others -/

/-- Related lists are related element by element. -/
theorem forall₂_with_mem {α β : Type} {R : α → β → Prop} {as : List α} {bs : List β}
    (h : List.Forall₂ R as bs) : List.Forall₂ (fun a b => a ∈ as ∧ b ∈ bs ∧ R a b) as bs := by
  induction h with
  | nil => exact .nil
  | cons hab _ ih =>
      refine .cons ⟨List.mem_cons_self, List.mem_cons_self, hab⟩ (ih.imp ?_)
      exact fun _ _ ⟨ha, hb, h⟩ => ⟨List.mem_cons_of_mem _ ha, List.mem_cons_of_mem _ hb, h⟩

/-- A list is related to what a function finds for its elements. -/
theorem forall₂_filterMap {α β : Type} {R : α → β → Prop} {f : α → Option β} {as : List α}
    (h : ∀ a ∈ as, ∃ b, f a = some b ∧ R a b) : List.Forall₂ R as (as.filterMap f) := by
  induction as with
  | nil => exact .nil
  | cons a as ih =>
      obtain ⟨b, hb, hab⟩ := h a List.mem_cons_self
      rw [List.filterMap_cons_some hb]
      exact .cons hab (ih fun a' ha' => h a' (List.mem_cons_of_mem _ ha'))

/-- The scope is the finished one of a tree, on top of the scopes that it was linked to. -/
def SharedScope.Whole (o : Options) (s : SharedScope) (t : Tree) : Prop :=
  ∃ k linked, linked <+: s.holds ∧ s.scope.Built o t (library linked) k

theorem SharedScope.Whole.filename {o : Options} {s : SharedScope} {t : Tree} (h : s.Whole o t) :
    s.filename = t.filename := by
  obtain ⟨k, linked, -, hbuilt⟩ := h
  exact Document.filename_of_scope hbuilt.scope

/-- The includes of a scope lead to the scopes that it holds, each of which stands before it. The
scope itself is the finished one of some tree. -/
structure SharedScope.Stands (o : Options) (before : List SharedScope) (s : SharedScope) :
    Prop where
  leads : List.Forall₂ (fun i u => u ∈ before ∧ i.Describes o.language s.scope.package u.scope)
    s.scope.linkage.present s.holds
  whole : ∃ t, s.Whole o t

theorem SharedScope.Stands.holds_subset {o : Options} {before : List SharedScope}
    {s : SharedScope} (h : s.Stands o before) : ∀ u ∈ s.holds, u ∈ before := by
  intro u hu
  obtain ⟨i, -, hbefore, -⟩ := exists_of_mem_forall₂ h.leads hu
  exact hbefore

namespace Cache

/-- The cache as builds leave it: numbers count up, every scope is kept under the number of its
own file, and stands on scopes that were stored before. -/
structure InOrder (o : Options) (c : Cache) : Prop where
  numbered : c.Numbered
  keys : ∀ e ∈ c.scopes, e.1 = e.2.file
  nodup : (c.scopes.map Prod.fst).Nodup
  filed : ∀ s ∈ c.stored, c.paths.get? s.filename = some s.file
  stands : ∀ before s after, c.stored = before ++ s :: after → s.Stands o before

namespace InOrder

variable {o : Options} {c : Cache}

theorem empty (o : Options) : InOrder o .empty :=
  ⟨.empty, nofun, List.nodup_nil, nofun, fun before s after h => by simp [stored, Cache.empty] at h⟩

variable (h : c.InOrder o)
include h

theorem mem_scopes_iff {s : SharedScope} : (s.file, s) ∈ c.scopes ↔ s ∈ c.stored := by
  constructor
  · exact fun hs => List.mem_map.mpr ⟨_, hs, rfl⟩
  · intro hs
    obtain ⟨⟨id, s⟩, he, rfl⟩ := List.mem_map.mp hs
    have hid : id = s.file := h.keys _ he
    rwa [← hid]

theorem lookup_eq_some_iff {id : FileId} {s : SharedScope} :
    c.scopes.lookup id = some s ↔ s ∈ c.stored ∧ s.file = id := by
  rw [lookup_eq_some_iff_mem h.nodup]
  constructor
  · intro hs
    have hid : id = s.file := h.keys _ hs
    subst hid
    exact ⟨h.mem_scopes_iff.mp hs, rfl⟩
  · rintro ⟨hs, rfl⟩
    exact h.mem_scopes_iff.mpr hs

/-- A file has the scope that is stored under its name. -/
theorem get?_eq_some_iff {path : String} {s : SharedScope} :
    c.get? path = some s ↔ s ∈ c.stored ∧ s.filename = path := by
  rw [get?, Option.bind_eq_some_iff]
  constructor
  · rintro ⟨id, hid, hs⟩
    obtain ⟨hmem, rfl⟩ := h.lookup_eq_some_iff.mp hs
    exact ⟨hmem, h.numbered.inj (h.filed s hmem) hid⟩
  · rintro ⟨hs, rfl⟩
    exact ⟨s.file, h.filed s hs, h.lookup_eq_some_iff.mpr ⟨hs, rfl⟩⟩

theorem get?_filename {s : SharedScope} (hs : s ∈ c.stored) : c.get? s.filename = some s :=
  h.get?_eq_some_iff.mpr ⟨hs, rfl⟩

/-- There is one scope of a file. -/
theorem eq_of_filename {s u : SharedScope} (hs : s ∈ c.stored) (hu : u ∈ c.stored)
    (hname : s.filename = u.filename) : s = u := by
  have hget := h.get?_filename hs
  rw [hname, h.get?_filename hu] at hget
  exact (Option.some.inj hget).symm

theorem get?_eq_none_iff {path : String} :
    c.get? path = none ↔ ∀ s ∈ c.stored, s.filename ≠ path := by
  constructor
  · rintro hnone s hs rfl
    rw [h.get?_filename hs] at hnone
    cases hnone
  · intro hne
    cases hget : c.get? path with
    | none => rfl
    | some s =>
        obtain ⟨hs, hname⟩ := h.get?_eq_some_iff.mp hget
        exact absurd hname (hne s hs)

/-- What stored scopes hold, directly or through others, is stored. -/
theorem all_subset {s : SharedScope} (hs : s ∈ c.stored) : ∀ u ∈ s.all, u ∈ c.stored := by
  induction s using SharedScope.induct with
  | step file scope holds ih =>
      intro u hu
      rw [SharedScope.all_eq_cons] at hu
      rcases List.mem_cons.mp hu with rfl | hu
      · exact hs
      · obtain ⟨v, hv, hu⟩ := SharedScope.mem_allOf.mp hu
        obtain ⟨before, after, heq⟩ := List.append_of_mem hs
        have hbefore := (h.stands before _ after heq).holds_subset v hv
        refine ih v hv ?_ u hu
        rw [heq]
        exact List.mem_append_left _ hbefore

/-- What is held, directly or through others, stands before the scope that holds it. -/
theorem allOf_holds_subset {before after : List SharedScope} {s : SharedScope}
    (hs : c.stored = before ++ s :: after) : ∀ u ∈ SharedScope.allOf s.holds, u ∈ before := by
  induction s using SharedScope.induct generalizing before after with
  | step file scope holds ih =>
      intro u hu
      obtain ⟨v, hv, hu⟩ := SharedScope.mem_allOf.mp hu
      have hbefore := (h.stands before _ after hs).holds_subset v hv
      rw [SharedScope.all_eq_cons] at hu
      rcases List.mem_cons.mp hu with rfl | hu
      · exact hbefore
      · obtain ⟨first, last, rfl⟩ := List.append_of_mem hbefore
        rw [List.append_assoc] at hs
        exact List.mem_append_left _ (ih v hv hs u hu)

theorem nodup_stored : c.stored.Nodup := by
  have hfiles : c.stored.map SharedScope.file = c.scopes.map Prod.fst := by
    rw [stored, List.map_map]
    exact List.map_congr_left fun e he => (h.keys e he).symm
  exact .of_map _ (hfiles ▸ h.nodup)

/-- What stands before a scope is of another file. -/
theorem filename_ne_of_before {before after : List SharedScope} {s u : SharedScope}
    (hs : c.stored = before ++ s :: after) (hu : u ∈ before) : u.filename ≠ s.filename := by
  intro hname
  have hsame : u = s := h.eq_of_filename (hs ▸ List.mem_append_left _ hu)
    (hs ▸ List.mem_append_right _ List.mem_cons_self) hname
  have hnodup := h.nodup_stored
  rw [hs, List.nodup_append] at hnodup
  exact hnodup.2.2 u hu s List.mem_cons_self hsame

/-- The library of a cache has the scopes of the cache. -/
theorem scope?_library (file : String) : c.library.scope? file = (c.get? file).map (·.scope) := by
  have hfind : c.library.scope? file =
      (c.stored.find? fun s => s.filename == file).map (·.scope) := by
    rw [Library.scope?, library, List.find?_map]
    rfl
  rw [hfind]
  cases hget : c.get? file with
  | none =>
      rw [List.find?_eq_none.mpr fun s hs => by simpa using h.get?_eq_none_iff.mp hget s hs]
  | some s =>
      obtain ⟨hs, rfl⟩ := h.get?_eq_some_iff.mp hget
      have hsome : (c.stored.find? fun u => u.filename == s.filename).isSome :=
        List.find?_isSome.mpr ⟨s, hs, by simp⟩
      obtain ⟨u, hu⟩ := Option.isSome_iff_exists.mp hsome
      have hname : u.filename = s.filename := by simpa using List.find?_some hu
      rw [hu, h.eq_of_filename (List.mem_of_find?_eq_some hu) hs hname]

/-! ### What look-ups see on top of stored scopes -/

section Library

variable {ss : List SharedScope} (hss : ∀ s ∈ ss, s ∈ c.stored)
include hss

theorem allOf_subset : ∀ u ∈ SharedScope.allOf ss, u ∈ c.stored := by
  intro u hu
  obtain ⟨s, hs, hu⟩ := SharedScope.mem_allOf.mp hu
  exact h.all_subset (hss s hs) u hu

/-- What the given scopes hold is found under its name. -/
theorem find?_eq_some_iff {file : String} {u : SharedScope} :
    SharedScope.find? ss file = some u ↔ u ∈ SharedScope.allOf ss ∧ u.filename = file := by
  rw [SharedScope.find?]
  constructor
  · intro hu
    exact ⟨List.mem_of_find?_eq_some hu, by simpa using List.find?_some hu⟩
  · rintro ⟨hu, rfl⟩
    have hsome : ((SharedScope.allOf ss).find? (·.filename == u.filename)).isSome :=
      List.find?_isSome.mpr ⟨u, hu, by simp⟩
    obtain ⟨v, hv⟩ := Option.isSome_iff_exists.mp hsome
    have hname : v.filename = u.filename := by simpa using List.find?_some hv
    rw [hv, h.eq_of_filename (h.allOf_subset hss v (List.mem_of_find?_eq_some hv))
      (h.allOf_subset hss u hu) hname]

theorem scope?_of_mem {u : SharedScope} (hu : u ∈ SharedScope.allOf ss) :
    (SharedScope.library ss).scope? u.filename = some u.scope := by
  rw [SharedScope.scope?_library, (h.find?_eq_some_iff hss).mpr ⟨hu, rfl⟩]
  rfl

/-- The includes of what is seen lead to something that is seen. -/
theorem closed_library : (SharedScope.library ss).Closed := by
  intro file s hs i hi
  rw [SharedScope.scope?_library] at hs
  obtain ⟨u, hu, rfl⟩ := Option.map_eq_some_iff.mp hs
  obtain ⟨hu, -⟩ := (h.find?_eq_some_iff hss).mp hu
  obtain ⟨before, after, heq⟩ := List.append_of_mem (h.allOf_subset hss u hu)
  obtain ⟨v, hv, -, hdescribes⟩ :=
    exists_of_mem_forall₂ (h.stands before u after heq).leads.flip hi
  obtain ⟨r, hr, hur⟩ := SharedScope.mem_allOf.mp hu
  have hv : v ∈ SharedScope.allOf ss :=
    SharedScope.mem_allOf.mpr ⟨r, hr, SharedScope.holds_subset_all hur v hv⟩
  exact ⟨v.scope, hdescribes.file ▸ h.scope?_of_mem hss hv⟩

theorem library_le : SharedScope.library ss ≤ c.library := by
  intro file s hs
  rw [SharedScope.scope?_library] at hs
  obtain ⟨u, hu, rfl⟩ := Option.map_eq_some_iff.mp hs
  obtain ⟨hmem, rfl⟩ := (h.find?_eq_some_iff hss).mp hu
  rw [h.scope?_library, h.get?_filename (h.allOf_subset hss u hmem)]
  rfl

end Library

/-! ### Steps -/

/-- Giving a number keeps a cache in order. -/
theorem fileId (path : String) : (c.fileId path).2.InOrder o := by
  have hscopes := c.scopes_fileId path
  have hstored : (c.fileId path).2.stored = c.stored := by rw [stored, hscopes, stored]
  refine ⟨h.numbered.fileId path, ?_, ?_, ?_, ?_⟩
  · rw [hscopes]
    exact h.keys
  · rw [hscopes]
    exact h.nodup
  · rw [hstored]
    exact fun s hs => get?_paths_mono (c.le_fileId path) (h.filed s hs)
  · rw [hstored]
    exact h.stands

/-- Storing a scope keeps a cache in order and takes nothing back. From then on its file has the
scope that is handed out. -/
theorem insert {s : SharedScope} (hfiled : c.paths.get? s.filename = some s.file)
    (hstands : c.get? s.filename = none → s.Stands o c.stored) :
    (c.insert s).2.InOrder o ∧ c ≤ (c.insert s).2 ∧
      (c.insert s).2.get? s.filename = some (c.insert s).1 := by
  have hget : c.get? s.filename = c.scopes.lookup s.file := by
    rw [get?, hfiled]
    rfl
  rw [Cache.insert]
  cases hlookup : c.scopes.lookup s.file with
  | some existing => exact ⟨h, le_refl c, hget.trans hlookup⟩
  | none =>
      -- there is no scope of the file yet, so that the new one stands last
      have hnew : (c.scopes ++ [(s.file, s)]).map Prod.snd = c.stored ++ [s] := by
        rw [List.map_append]
        rfl
      have horder : InOrder o { c with scopes := c.scopes ++ [(s.file, s)] } := by
        constructor
        case numbered => exact ⟨h.numbered.ids, h.numbered.nodup, h.numbered.next⟩
        case keys =>
          intro e he
          rcases List.mem_append.mp he with he | he
          · exact h.keys e he
          · rw [List.mem_singleton.mp he]
        case nodup =>
          rw [List.map_append, List.nodup_append]
          refine ⟨h.nodup, List.nodup_singleton _, fun a ha b hb hab => ?_⟩
          obtain ⟨e, he, rfl⟩ := List.mem_map.mp ha
          have hkey : s.file = e.1 := (hab.trans (List.mem_singleton.mp hb)).symm
          have hfree := List.lookup_eq_none_iff.mp hlookup e he
          rw [hkey] at hfree
          simp at hfree
        case filed =>
          intro u hu
          rw [stored, hnew] at hu
          rcases List.mem_append.mp hu with hu | hu
          · exact h.filed u hu
          · rw [List.mem_singleton.mp hu]
            exact hfiled
        case stands =>
          intro before u after heq
          rw [stored, hnew] at heq
          rcases List.eq_nil_or_concat after with rfl | ⟨others, last, rfl⟩
          · obtain ⟨rfl, rfl⟩ := List.append_singleton_inj.mp heq
            exact hstands (hget.trans hlookup)
          · rw [List.concat_eq_append, ← List.cons_append, ← List.append_assoc] at heq
            exact h.stands before u others (List.append_singleton_inj.mp heq).1
      refine ⟨horder, ⟨List.prefix_refl _, List.prefix_append _ _⟩, ?_⟩
      refine horder.get?_eq_some_iff.mpr ⟨?_, rfl⟩
      rw [stored, hnew]
      exact List.mem_append_right _ (List.mem_singleton_self s)

/-- A scope that is finished on top of stored ones is whole and stands on them. -/
theorem stands_share {t : Tree} {file : FileId} {s : Scope} {k : Linked}
    (hstored : ∀ u ∈ k.holds, u ∈ c.stored) (hfree : c.get? t.filename = none)
    (hjoins : Linked.Joins o.language t.includes ⟨o.unlinked t.document, []⟩ k)
    (hscope : t.document.scope o (SharedScope.library k.holds) k.linkage = .ok s) :
    (SharedScope.share file s k.holds).Whole o t ∧
      (SharedScope.share file s k.holds).Stands o c.stored := by
  have hbuilt : s.Built o t (SharedScope.library k.holds) k.linkage := by
    refine ⟨h.closed_library hstored, ?_, ?_, hscope⟩
    · rw [SharedScope.scope?_library]
      cases hfind : SharedScope.find? k.holds t.filename with
      | none => rfl
      | some u =>
          obtain ⟨hu, hname⟩ := (h.find?_eq_some_iff hstored).mp hfind
          exact absurd hname (h.get?_eq_none_iff.mp hfree u (h.allOf_subset hstored u hu))
    · exact hjoins.links fun u hu => h.scope?_of_mem hstored (SharedScope.mem_allOf_of_mem hu)
  have hwhole : (SharedScope.share file s k.holds).Whole o t :=
    ⟨k.linkage, k.holds, List.prefix_append _ _, hbuilt⟩
  refine ⟨hwhole, ?_, t, hwhole⟩
  -- the includes of the source come first, and the rest was appended while the file was finished
  have haligned : k.Aligned := hjoins.aligned .nil
  obtain ⟨rest, hrest⟩ := hbuilt.spans.le.2.1
  have hpresent : s.linkage.present = k.linkage.present ++ rest.filterMap id := by
    rw [Linkage.present, ← hrest, List.filterMap_append]
    rfl
  have hdrop : s.linkage.present.drop k.holds.length = rest.filterMap id := by
    rw [hpresent, ← haligned.length_eq, List.drop_left]
  have hseen : ∀ i ∈ s.linkage.present, ∃ u, SharedScope.find? k.holds i.file = some u ∧
      u ∈ c.stored ∧ i.Describes o.language s.package u.scope := by
    intro i hi
    obtain ⟨v, hv, hdescribes⟩ := hbuilt.described i hi
    rw [SharedScope.scope?_library] at hv
    obtain ⟨u, hu, rfl⟩ := Option.map_eq_some_iff.mp hv
    exact ⟨u, hu, h.allOf_subset hstored u ((h.find?_eq_some_iff hstored).mp hu).1, hdescribes⟩
  change List.Forall₂ _ s.linkage.present
    (k.holds ++ (s.linkage.present.drop k.holds.length).filterMap fun i =>
      SharedScope.find? k.holds i.file)
  rw [hdrop, hpresent]
  rw [hpresent] at hseen
  refine List.rel_append ?_ (forall₂_filterMap fun i hi => hseen i (List.mem_append_right _ hi))
  refine (forall₂_with_mem haligned).imp ?_
  rintro i u ⟨hi, hu, hname⟩
  obtain ⟨v, hv, hstored', hdescribes⟩ := hseen i (List.mem_append_left _ hi)
  have hu' := (h.find?_eq_some_iff hstored).mpr ⟨SharedScope.mem_allOf_of_mem hu, hname.symm⟩
  rw [hu'] at hv
  cases hv
  exact ⟨hstored', hdescribes⟩

end InOrder

end Cache
end IdlScope

import IdlScope.Proofs.Appending
import IdlScope.Proofs.Linkages
import Mathlib.Order.Lattice.Nat

/-!
# Breadth first — the order in which the files in sight are listed

The files that a place can see are listed in layers. A search that works off a queue of includes
lists the same files in the same order, and what it lists can be told without any search, by
the number of includes on the way to a file:

* **`Library.Searches`** — the search with a queue, where several includes of one file may stand.
  It comes to what the layers list (`Library.searches_layers`).
* **`Library.distance`** — how far a file is away.
* **`Library.Front`** — how far the search has come: what was seen and what the layer leads to.
* **`Library.Outward`** — a list that goes from the inside out.
* **`Options.Building`** — the files that are being built at a time of a run.
* **`reach_breadth_first`** — from all of these files and all finished ones, the search is breadth
  first (`Library.BreadthFirst`).
-/

namespace IdlScope

namespace Library

variable {l : Library}

/-! ## Searching with a queue -/

/-- The search from a queue of includes lists the files. An include of a file that was seen is
skipped on arrival. Every other one is listed, and the includes of its file join the queue. -/
inductive Searches (l : Library) : List String → List Include → List Reached → Prop
  | done (seen : List String) : Searches l seen [] []
  | skip {seen : List String} {i : Include} {queue : List Include} {out : List Reached}
    (hseen : i.file ∈ seen) (h : Searches l seen queue out) : Searches l seen (i :: queue) out
  | visit {seen : List String} {i : Include} {queue : List Include} {r : Reached}
    {out : List Reached} (hnew : i.file ∉ seen) (hr : l.follow? i = some r)
    (h : Searches l (i.file :: seen) (queue ++ r.place.directory.present) out) :
    Searches l seen (i :: queue) (r :: out)

namespace Searches

variable {seen seen' : List String} {queue layer back : List Include} {out out' : List Reached}

/-- Only which files were seen matters. -/
theorem congr (h : Searches l seen queue out) (hseen : ∀ file, file ∈ seen ↔ file ∈ seen') :
    Searches l seen' queue out := by
  induction h generalizing seen' with
  | done _ => exact .done seen'
  | skip hold _ ih => exact .skip ((hseen _).mp hold) (ih hseen)
  | visit hnew hr _ ih =>
      refine .visit (fun hmem => hnew ((hseen _).mpr hmem)) hr (ih fun file => ?_)
      rw [List.mem_cons, List.mem_cons, hseen file]

/-- A search lists one thing. -/
theorem unique (h : Searches l seen queue out) (h' : Searches l seen queue out') : out' = out := by
  induction h generalizing out' with
  | done _ =>
      cases h'
      rfl
  | skip hold _ ih =>
      cases h' with
      | skip _ h' => exact ih h'
      | visit hnew _ _ => exact absurd hold hnew
  | visit hnew hr _ ih =>
      cases h' with
      | skip hold _ => exact absurd hold hnew
      | visit _ hr' h' =>
          obtain rfl := Option.some.inj (hr.symm.trans hr')
          rw [ih h']

/-- What is at the front of the queue is worked off: its new files are listed, and their includes
stand at the end. -/
theorem front (hknown : ∀ i ∈ layer, l.Knows i.file)
    (h : Searches l ((unseen seen layer).map Include.file ++ seen)
      (back ++ ((unseen seen layer).filterMap l.follow?).flatMap (·.place.directory.present)) out) :
    Searches l seen (layer ++ back) ((unseen seen layer).filterMap l.follow? ++ out) := by
  induction layer generalizing seen back with
  | nil =>
      rw [unseen, List.filterMap_nil, List.flatMap_nil, List.append_nil] at h
      exact h
  | cons i is ih =>
      have hrest : ∀ j ∈ is, l.Knows j.file := fun j hj => hknown j (List.mem_cons_of_mem _ hj)
      rw [unseen] at h ⊢
      by_cases hold : i.file ∈ seen
      · rw [if_pos (by simpa using hold)] at h ⊢
        exact .skip hold (ih hrest h)
      · rw [if_neg (by simpa using hold)] at h ⊢
        obtain ⟨q, -, hr⟩ := (hknown i List.mem_cons_self).follow?
        rw [List.filterMap_cons_some hr] at h ⊢
        rw [List.cons_append, List.cons_append]
        refine .visit hold hr ?_
        rw [List.append_assoc]
        refine ih hrest ?_
        rw [List.flatMap_cons, ← List.append_assoc] at h
        refine h.congr fun file => ?_
        simp only [List.map_cons, List.mem_append, List.mem_cons]
        tauto

/-- Every file is listed once, and none that was seen before. -/
theorem fresh (h : Searches l seen queue out) :
    (∀ r ∈ out, r.link.file ∉ seen) ∧ (out.map (·.link.file)).Nodup := by
  induction h with
  | done _ => exact ⟨fun _ hr => absurd hr List.not_mem_nil, List.nodup_nil⟩
  | skip _ _ ih => exact ih
  | @visit seen i queue r out hnew hr _ ih =>
      obtain ⟨hothers, honce⟩ := ih
      obtain ⟨q, -, rfl⟩ := Option.map_eq_some_iff.mp hr
      refine ⟨?_, List.nodup_cons.mpr ⟨?_, honce⟩⟩
      · rintro r (_ | ⟨_, hr⟩)
        · exact hnew
        · exact fun hseen => hothers r hr (List.mem_cons_of_mem _ hseen)
      · rintro hagain
        obtain ⟨r, hr, hfile⟩ := List.mem_map.mp hagain
        exact hothers r hr (hfile ▸ List.mem_cons_self)

end Searches

/-- **Layers are what the search with a queue lists,** if the bound counts the files ahead. -/
theorem searches_layers (hl : l.Closed) (n : Nat) (seen : List String) (layer : List Include)
    (hlayer : ∀ i ∈ layer, l.Knows i.file) (hn : (l.ahead seen).card ≤ n) :
    Searches l seen layer (layers l n seen layer) := by
  -- a layer is what stands in the queue when the one before is worked off
  have hfront : ∀ seen layer behind, (∀ i ∈ layer, l.Knows i.file) →
      Searches l ((unseen seen layer).map Include.file ++ seen)
        (((unseen seen layer).filterMap l.follow?).flatMap (·.place.directory.present)) behind →
      Searches l seen layer ((unseen seen layer).filterMap l.follow? ++ behind) := by
    intro seen layer behind hlayer h
    have hsearch : Searches l seen (layer ++ []) _ := .front hlayer h
    rwa [List.append_nil] at hsearch
  refine layers_induction hl (fun seen layer hlayer hnone => ?_) hfront n seen layer hlayer hn
  have hsearch := hfront seen layer [] hlayer (by
    rw [hnone]
    exact .done _)
  rwa [hnone] at hsearch

/-! ## Distances -/

/-- A way along so many includes leads to the file. -/
inductive LeadsIn (l : Library) (is : List Include) : Nat → String → Prop
  | direct {i : Include} (hi : i ∈ is) : LeadsIn l is 1 i.file
  | behind {n : Nat} {file : String} {q : Place} {i : Include} (h : LeadsIn l is n file)
    (hq : l.place? file = some q) (hi : i ∈ q.directory.present) : LeadsIn l is (n + 1) i.file

/-- The number of includes on a shortest way to the file. -/
noncomputable def distance (l : Library) (is : List Include) (file : String) : Nat :=
  sInf {n | l.LeadsIn is n file}

section Distances

variable {is : List Include} {n : Nat} {file : String}

theorem LeadsIn.pos (h : l.LeadsIn is n file) : 0 < n := by
  cases h <;> exact Nat.succ_pos _

theorem LeadsIn.through {i : Include} {q : Place} (hi : i ∈ is) (hq : l.place? i.file = some q)
    (h : l.LeadsIn q.directory.present n file) : l.LeadsIn is (n + 1) file := by
  induction h with
  | direct hj => exact .behind (.direct hi) hq hj
  | behind _ hr hj ih => exact .behind ih hr hj

/-- What includes lead to, they lead to in some number of steps. -/
theorem leads_iff : l.Leads is file ↔ ∃ n, l.LeadsIn is n file := by
  constructor
  · intro h
    induction h with
    | direct hi => exact ⟨1, .direct hi⟩
    | through hi hq _ ih =>
        obtain ⟨n, h⟩ := ih
        exact ⟨n + 1, h.through hi hq⟩
  · rintro ⟨n, h⟩
    induction h with
    | direct hi => exact .direct hi
    | behind _ hq hi ih => exact ih.step hq (.direct hi)

theorem LeadsIn.distance_le (h : l.LeadsIn is n file) : l.distance is file ≤ n :=
  Nat.sInf_le h

theorem LeadsIn.shortest (h : l.LeadsIn is n file) : l.LeadsIn is (l.distance is file) file := by
  have hway : {n | l.LeadsIn is n file}.Nonempty := ⟨n, h⟩
  exact Nat.sInf_mem hway

/-- A file is as far as the length of a way to it if no way is shorter. -/
theorem LeadsIn.distance_eq_iff (h : l.LeadsIn is (n + 1) file) :
    l.distance is file = n + 1 ↔ ¬ ∃ m ≤ n, l.LeadsIn is m file := by
  constructor
  · rintro hn ⟨m, hm, hshort⟩
    have := hshort.distance_le
    omega
  · intro hnone
    have hle := h.distance_le
    by_contra hne
    exact hnone ⟨_, by omega, h.shortest⟩

end Distances

/-! ## From layer to layer -/

/-- The first include of each file, among those that lead so far. -/
noncomputable def firsts (l : Library) (is layer : List Include) (n : Nat) : List Include :=
  (layer.filter fun i => l.distance is i.file = n).eraseDupsBy fun i j => i.file == j.file

/-- The files so far away, in the order of the list. -/
noncomputable def ring (l : Library) (is : List Include) (listed : List Reached) (n : Nat) :
    List Reached :=
  listed.filter fun r => l.distance is r.link.file = n

/-- The search has come `n` includes far: it has seen the own file and the files up to there, and
the layer, which are their includes, leads to all that are one further. -/
structure Front (l : Library) (own : String) (is : List Include) (n : Nat) (seen : List String)
    (layer : List Include) : Prop where
  old : ∀ file, file ∈ seen ↔ file = own ∨ ∃ m ≤ n, l.LeadsIn is m file
  leads : ∀ i ∈ layer, l.LeadsIn is (n + 1) i.file
  all : ∀ file, l.LeadsIn is (n + 1) file → file ∈ seen ∨ ∃ i ∈ layer, i.file = file

theorem unseen_eq_eraseDupsBy (seen : List String) (layer : List Include) :
    unseen seen layer = (layer.filter fun i => i.file ∉ seen).eraseDupsBy
      fun i j => i.file == j.file := by
  induction layer generalizing seen with
  | nil => rfl
  | cons i is ih =>
      rw [unseen]
      by_cases hold : i.file ∈ seen
      · rw [if_pos (by simpa using hold), List.filter_cons_of_neg (by simpa using hold)]
        exact ih seen
      · rw [if_neg (by simpa using hold), List.filter_cons_of_pos (by simpa using hold),
          List.eraseDupsBy_cons, List.filter_filter, ih]
        congr 2
        refine List.filter_congr fun j _ => ?_
        simp [not_or]

/-- Known includes are followed, all of them. -/
theorem map_link_filterMap {links : List Include} (h : ∀ i ∈ links, l.Knows i.file) :
    (links.filterMap l.follow?).map Reached.link = links := by
  induction links with
  | nil => rfl
  | cons i is ih =>
      obtain ⟨q, -, hr⟩ := (h i List.mem_cons_self).follow?
      rw [List.filterMap_cons_some hr, List.map_cons,
        ih fun j hj => h j (List.mem_cons_of_mem _ hj)]

namespace Front

variable {own : String} {is layer : List Include} {n : Nat} {seen : List String}

theorem start (l : Library) (own : String) (is : List Include) : l.Front own is 0 [own] is where
  old file := by
    rw [List.mem_singleton]
    refine (or_iff_left ?_).symm
    rintro ⟨m, hm, h⟩
    exact absurd h.pos (by omega)
  leads _ hi := .direct hi
  all file h := by
    cases h with
    | direct hi => exact .inr ⟨_, hi, rfl⟩
    | behind h _ _ => exact absurd h.pos (Nat.lt_irrefl 0)

variable (h : l.Front own is n seen layer)
include h

/-- A file that is one further was seen before or is one of the new ones of the layer. -/
theorem reaches {file : String} (hway : l.LeadsIn is (n + 1) file) :
    file ∈ seen ∨ ∃ i ∈ Library.unseen seen layer, i.file = file := by
  rcases h.all file hway with hold | ⟨i, hi, rfl⟩
  · exact .inl hold
  · exact or_iff_not_imp_left.mpr (exists_mem_unseen hi)

/-- New files of the layer are exactly so far away. -/
theorem notMem_seen_iff (hown : ¬ l.Leads is own) {i : Include} (hi : i ∈ layer) :
    i.file ∉ seen ↔ l.distance is i.file = n + 1 := by
  have hleads := h.leads i hi
  have hne : i.file ≠ own := fun heq => hown (heq ▸ leads_iff.mpr ⟨_, hleads⟩)
  rw [hleads.distance_eq_iff, h.old, or_iff_right hne]

theorem unseen_eq (hown : ¬ l.Leads is own) : unseen seen layer = l.firsts is layer (n + 1) := by
  rw [unseen_eq_eraseDupsBy, firsts]
  congr 1
  refine List.filter_congr fun i hi => ?_
  exact decide_eq_decide.mpr (h.notMem_seen_iff hown hi)

/-- With the new files of the layer, the files up to one include further were seen. -/
theorem old_next (file : String) :
    file ∈ (Library.unseen seen layer).map Include.file ++ seen ↔
      file = own ∨ ∃ m ≤ n + 1, l.LeadsIn is m file := by
  rw [List.mem_append, h.old]
  constructor
  · rintro (hnew | rfl | ⟨m, hm, hway⟩)
    · obtain ⟨i, hi, rfl⟩ := List.mem_map.mp hnew
      exact .inr ⟨n + 1, le_rfl, h.leads i (mem_unseen hi).1⟩
    · exact .inl rfl
    · exact .inr ⟨m, hm.trans n.le_succ, hway⟩
  · rintro (rfl | ⟨m, hm, hway⟩)
    · exact .inr (.inl rfl)
    · rcases Nat.le_succ_iff.mp hm with hm | rfl
      · exact .inr (.inr ⟨m, hm, hway⟩)
      · obtain hold | ⟨j, hj, hfile⟩ := h.reaches hway
        · exact .inr ((h.old file).mp hold)
        · exact .inl (List.mem_map.mpr ⟨j, hj, hfile⟩)

/-- **One layer on.** The includes of the files that the layer is new of are the next layer. -/
theorem next (hown : ¬ l.Leads is own) (hlayer : ∀ i ∈ layer, l.Knows i.file) :
    l.Front own is (n + 1) ((Library.unseen seen layer).map Include.file ++ seen)
      (((Library.unseen seen layer).filterMap l.follow?).flatMap
        (·.place.directory.present)) where
  old := h.old_next
  leads j hj := by
    obtain ⟨r, hr, hj⟩ := List.mem_flatMap.mp hj
    obtain ⟨i, hi, hr⟩ := List.mem_filterMap.mp hr
    obtain ⟨q, hq, rfl⟩ := Option.map_eq_some_iff.mp hr
    exact .behind (h.leads i (mem_unseen hi).1) hq hj
  all file hway := by
    cases hway with
    | @behind _ before q j hway hq hj =>
        rcases h.reaches hway with hold | ⟨i, hi, rfl⟩
        · -- on a shorter way to the file before, there is a shorter one to this file
          rcases (h.old before).mp hold with rfl | ⟨m, hm, hshort⟩
          · exact absurd (leads_iff.mpr ⟨_, hway⟩) hown
          · exact .inl ((h.old_next _).mpr (.inr ⟨m + 1, by omega, .behind hshort hq hj⟩))
        · obtain ⟨q', hq', hr⟩ := (hlayer i (mem_unseen hi).1).follow?
          obtain rfl := Option.some.inj (hq.symm.trans hq')
          exact .inr ⟨j, List.mem_flatMap.mpr
            ⟨_, List.mem_filterMap.mpr ⟨i, hi, hr⟩, hj⟩, rfl⟩

end Front

/-! ## From the inside out -/

/-- The list goes on layer by layer, with what the includes of `layer` lead to, which is further
away than `n` includes. -/
structure Outward (l : Library) (is : List Include) (n : Nat) (layer : List Include)
    (listed : List Reached) : Prop where
  beyond : ∀ r ∈ listed, n < l.distance is r.link.file
  nearer : listed.Pairwise fun r r' => l.distance is r.link.file ≤ l.distance is r'.link.file
  /-- The nearest files are listed as the layer names them. -/
  first : (l.ring is listed (n + 1)).map Reached.link = l.firsts is layer (n + 1)
  /-- The files behind them are listed as the files of the layer before name them. -/
  further : ∀ m, n < m → (l.ring is listed (m + 1)).map Reached.link =
    l.firsts is ((l.ring is listed m).flatMap (·.place.directory.present)) (m + 1)

section Outward

variable {is layer : List Include} {n : Nat} {listed front back : List Reached}

theorem ring_append (m : Nat) :
    l.ring is (front ++ back) m = l.ring is front m ++ l.ring is back m :=
  List.filter_append ..

theorem ring_eq_self (h : ∀ r ∈ listed, l.distance is r.link.file = n) :
    l.ring is listed n = listed :=
  List.filter_eq_self.mpr fun r hr => decide_eq_true (h r hr)

theorem ring_eq_nil (h : ∀ r ∈ listed, l.distance is r.link.file ≠ n) :
    l.ring is listed n = [] :=
  List.filter_eq_nil_iff.mpr fun r hr => by simpa using h r hr

/-- Without new files in the layer nothing is listed. -/
theorem Outward.nil (h : l.firsts is layer (n + 1) = []) : l.Outward is n layer [] where
  beyond _ hr := absurd hr List.not_mem_nil
  nearer := .nil
  first := h.symm
  further _ _ := rfl

/-- What is listed behind a layer goes on behind it. -/
theorem Outward.behind (hfront : ∀ r ∈ front, l.distance is r.link.file = n + 1)
    (hlinks : front.map Reached.link = l.firsts is layer (n + 1))
    (h : l.Outward is (n + 1) (front.flatMap (·.place.directory.present)) back) :
    l.Outward is n layer (front ++ back) := by
  have hring : l.ring is (front ++ back) (n + 1) = front := by
    rw [ring_append, ring_eq_self hfront, ring_eq_nil fun r hr => (h.beyond r hr).ne',
      List.append_nil]
  have hbehind : ∀ m, n + 1 < m → l.ring is (front ++ back) m = l.ring is back m := by
    intro m hm
    rw [ring_append, ring_eq_nil fun r hr => (hfront r hr).trans_ne hm.ne, List.nil_append]
  constructor
  case beyond =>
    intro r hr
    rcases List.mem_append.mp hr with hr | hr
    · exact (Nat.lt_succ_self n).trans_eq (hfront r hr).symm
    · exact (Nat.lt_succ_self n).trans (h.beyond r hr)
  case nearer =>
    refine List.pairwise_append.mpr ⟨?_, h.nearer, ?_⟩
    · exact List.pairwise_of_forall_mem_list fun r hr r' hr' =>
        ((hfront r hr).trans (hfront r' hr').symm).le
    · exact fun r hr r' hr' => (hfront r hr).trans_le (h.beyond r' hr').le
  case first =>
    rw [hring, hlinks]
  case further =>
    intro m hm
    rcases Nat.lt_or_eq_of_le (Nat.succ_le_of_lt hm) with hm | rfl
    · rw [hbehind m hm, hbehind (m + 1) (by omega), h.further m hm]
    · rw [hring, hbehind _ (Nat.lt_succ_self _), h.first]

/-- **Layers go from the inside out,** if the bound counts the files ahead. -/
theorem outward_layers (hl : l.Closed) {own : String} (hown : ¬ l.Leads is own) (bound : Nat)
    {seen : List String} (hfront : l.Front own is n seen layer)
    (hlayer : ∀ i ∈ layer, l.Knows i.file) (hbound : (l.ahead seen).card ≤ bound) :
    l.Outward is n layer (layers l bound seen layer) := by
  refine layers_induction hl (motive := fun seen layer listed =>
    ∀ n, l.Front own is n seen layer → l.Outward is n layer listed)
    (fun seen layer _ hnone n hfront => ?_) (fun seen layer behind hlayer ih n hfront => ?_)
    bound seen layer hlayer hbound n hfront
  · exact .nil (hfront.unseen_eq hown ▸ hnone)
  · have hknown : ∀ i ∈ unseen seen layer, l.Knows i.file :=
      fun i hi => hlayer i (mem_unseen hi).1
    have hlinks := map_link_filterMap hknown
    refine .behind (fun r hr => ?_) (hlinks.trans (hfront.unseen_eq hown))
      (ih (n + 1) (hfront.next hown hlayer))
    have hlink := hlinks ▸ List.mem_map_of_mem (f := Reached.link) hr
    exact (hfront.notMem_seen_iff hown (mem_unseen hlink).1).mp (mem_unseen hlink).2

end Outward

/-! ## Breadth first -/

/-- The list is what a breadth-first search from the includes of a file comes to: what the search
with a queue lists, and that alone; with the places of all files that the includes lead to, each
once, without the file itself; the nearer ones first, and those equally far as the include lists of
the files before them name them. -/
structure BreadthFirst (l : Library) (d : Directory) (listed : List Reached) : Prop
    extends l.Outward d.present 0 d.present listed where
  searched : ∀ out, l.Searches [d.filename] d.present out ↔ out = listed
  reached : ∀ file, (∃ r ∈ listed, r.link.file = file) ↔ l.Leads d.present file
  places : ∀ r ∈ listed, l.place? r.link.file = some r.place
  once : (listed.map (·.link.file)).Nodup
  others : ∀ r ∈ listed, r.link.file ≠ d.filename

/-- **The search is breadth first,** from a file with known includes that does not lead to
itself. -/
theorem Closed.breadthFirst_reach (hl : l.Closed) {d : Directory} (home : Home)
    (hd : ∀ i ∈ d.present, l.Knows i.file) (hown : ¬ l.Leads d.present d.filename) :
    l.BreadthFirst d (l.reach ⟨home, d⟩) := by
  have hbound := card_ahead_le (le_refl l) [d.filename]
  have hsearch : l.Searches [d.filename] d.present (l.reach ⟨home, d⟩) :=
    searches_layers hl _ _ _ hd hbound
  refine ⟨outward_layers hl hown _ (.start l _ _) hd hbound, fun out => ?_, fun file => ?_,
    fun r hr => (leads_of_mem_layers hr).1, hsearch.fresh.2, fun r hr => ?_⟩
  · exact ⟨fun h => hsearch.unique h, fun h => h ▸ hsearch⟩
  · exact listed_iff hl (p := ⟨.here, d⟩) ⟨trivial, hd⟩ hown
  · exact fun hfile => hsearch.fresh.1 r hr (List.mem_singleton.mpr hfile)

/-- A finished file sees what a breadth-first search comes to. -/
theorem Sound.breadthFirst_reach {o : Options} {P : Tree → Prop} (hl : l.Sound o P) {file : String}
    {s : Scope} (hs : l.scope? file = some s) (home : Home) :
    l.BreadthFirst s.directory (l.reach ⟨home, s.directory⟩) := by
  obtain ⟨t, m, k, -, hle, hbuilt⟩ := hl.built file s hs
  have hlast : s.Meanwhile t.includes.length s.linkage.includes :=
    ⟨List.take_prefix _ _, List.prefix_refl _⟩
  obtain ⟨hcovered, hown⟩ := hbuilt.meanwhile_place hle hl.closed hlast
  exact hl.closed.breadthFirst_reach home hcovered.includes hown

end Library

/-! ## Files that are being built -/

/-- During a run a file is being built, and others wait for it. These includes are still to be
linked, and this is the library and the linkage so far. -/
inductive Options.Building (o : Options) :
    List String → Document → List (Included Tree) → Library → Linkage → Prop
  /-- The build of a root file begins. -/
  | root (requests : List Request) (t : Tree)
    (hfree : ((Run.new o).serveAll requests).library.scope? t.filename = none)
    (hcheck : t.document.check o = .ok ()) :
    Building o [] t.document t.includes
      (((Run.new o).serveAll requests).library.meet t.filename) (o.unlinked t.document)
  /-- The build of the next include begins, and the file waits for it. -/
  | inside {waiting : List String} {d : Document} {i : Included Tree} {is : List (Included Tree)}
    {l : Library} {k : Linkage} (h : Building o waiting d (i :: is) l k) (hused : i.used = true)
    (hfree : l.scope? i.content.filename = none)
    (hnew : i.content.filename ∉ waiting ++ [d.filename])
    (hcheck : i.content.document.check o = .ok ()) :
    Building o (waiting ++ [d.filename]) i.content.document i.content.includes
      (l.meet i.content.filename) (o.unlinked i.content.document)
  /-- The next includes were built and linked. -/
  | linked {waiting : List String} {d : Document} {front is : List (Included Tree)}
    {l m : Library} {k k' : Linkage} (h : Building o waiting d (front ++ is) l k)
    (hrun : (buildIncludes o d (waiting ++ [d.filename]) front k).run.run l = (.ok k', m)) :
    Building o waiting d is m k'
  /-- All includes are linked, and the scope is written. -/
  | written {waiting : List String} {d : Document} {l : Library} {k k' : Linkage}
    (h : Building o waiting d [] l k) (hreaches : k.Reaches ⟨o.language, l⟩ k') :
    Building o waiting d [] l k'

namespace Options.Building

variable {o : Options} {waiting : List String} {d : Document} {is : List (Included Tree)}
  {l : Library} {k : Linkage}

/-- Building includes keeps a library sound. -/
theorem sound_buildIncludes {m : Library} {k' : Linkage} (hl : l.Sound o fun _ => True)
    (hrun : (buildIncludes o d waiting is k).run.run l = (.ok k', m)) :
    m.Sound o fun _ => True := by
  have hkept := (kept_includes d waiting is (fun i _ _ _ hl =>
    kept_sound (fun _ _ _ _ _ => trivial) i.content trivial _ hl) l k hl).1
  rw [hrun] at hkept
  exact hkept.holds

/-- While a file is being built, the library is sound, neither the file nor one that waits has a
scope, and the includes so far are known. -/
theorem sound (h : o.Building waiting d is l k) : l.Sound o (fun _ => True) ∧
    (∀ file ∈ waiting ++ [d.filename], l.scope? file = none) ∧ k.Covered l := by
  induction h with
  | root requests t hfree hcheck =>
      have hsound := (Run.sound_serveAll o requests).imp fun _ _ => trivial
      refine ⟨hsound.meet _, fun file hfile => ?_, covered_unlinked o _ _⟩
      rw [List.mem_singleton.mp hfile, Library.scope?_meet]
      exact hfree
  | inside _ _ hfree _ _ ih =>
      obtain ⟨hsound, hwaiting, -⟩ := ih
      refine ⟨hsound.meet _, fun file hfile => ?_, covered_unlinked o _ _⟩
      rw [Library.scope?_meet]
      rcases List.mem_append.mp hfile with hfile | hfile
      · exact hwaiting file hfile
      · rw [List.mem_singleton.mp hfile]
        exact hfree
  | linked _ hrun ih =>
      obtain ⟨hsound, hwaiting, hcovered⟩ := ih
      obtain ⟨hkept, hlinks⟩ := links_of_buildIncludes hrun
      have hknown : Linkage.Covered _ _ := fun i hi => (hcovered i hi).mono hkept.le
      exact ⟨sound_buildIncludes hsound hrun,
        fun file hfile => hkept.waiting file hfile (hwaiting file hfile), hlinks.covered hknown⟩
  | written _ hreaches ih =>
      obtain ⟨hsound, hwaiting, hcovered⟩ := ih
      exact ⟨hsound, hwaiting, (Linkage.lasting_covered _ _).reaches hreaches hcovered⟩

/-- A file that gets a scope was being built, at last with the linkage of the scope. -/
theorem comes_to_scope (h : o.Building waiting d is (l.meet d.filename) (o.unlinked d))
    (hfree : l.scope? d.filename = none) {s : Scope} {n : Library}
    (hrun : (buildTree o waiting ⟨d, is⟩).run.run l = (.ok s, n)) :
    ∃ m, o.Building waiting d [] m s.linkage ∧ n = m.add s := by
  have hends := ends_buildTree o waiting d is l
  rw [hrun] at hends
  cases hends with
  | cached hs => exact absurd (hs.symm.trans hfree) (Option.some_ne_none s)
  | @built _ k m _ _ _ hincludes hscope =>
      rw [← List.append_nil is] at h
      have hlinked := h.linked hincludes
      obtain ⟨hsound, hwaiting, -⟩ := hlinked.sound
      have hbuilt : s.Built o ⟨d, is⟩ m k := {
        closed := hsound.closed
        free := hwaiting _ (List.mem_append_right _ List.mem_cons_self)
        links := (links_of_buildIncludes hincludes).2
        scope := hscope }
      exact ⟨m, hlinked.written hbuilt.reaches, rfl⟩

end Options.Building

/-- A look-up of a run may start from the file: it is finished, or it is being built. -/
inductive Options.AtHand (o : Options) : Library → Directory → Prop
  | finished (requests : List Request) {file : String} {s : Scope}
    (hs : ((Run.new o).serveAll requests).library.scope? file = some s) :
    AtHand o ((Run.new o).serveAll requests).library s.directory
  /-- The file is finished, and another one is being built. -/
  | beside {waiting : List String} {d : Document} {is : List (Included Tree)} {l : Library}
    {k : Linkage} (h : o.Building waiting d is l k) {file : String} {s : Scope}
    (hs : l.scope? file = some s) : AtHand o l s.directory
  | building {waiting : List String} {d : Document} {is : List (Included Tree)} {l : Library}
    {k : Linkage} (h : o.Building waiting d is l k) (declared : Table Declared)
    (enums : List Enum) : AtHand o l ⟨d, k.includes, declared, enums⟩

/-- The linkage of the coat and the library, once its includes are built. -/
def Sample.underCoat : Except BuildError Linkage × Library :=
  (buildIncludes {} coat.document ([] ++ [coat.document.filename]) coat.includes
    (Options.unlinked {} coat.document)).run.run
      (((Run.new {}).serveAll []).library.meet coat.filename)

end IdlScope

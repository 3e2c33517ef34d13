import IdlScope.Scope.Structure
import Mathlib.Data.List.Forall2

/-!
# Steps — what a step that went well has done

The stages of a build are steps that may fail and may change a state. A statement about a
finished scope starts from "it was built" and asks what every stage before it did, so this
file takes successful steps apart:

* **`bind_eq_ok`**, **`mapM_eq_ok`** — a sequence went well if and only if each of its parts
  did.
* **`Ensures`** — a step, whenever it goes well from a state with one property, ends in a
  state with another. It is carried through sequences and loops.
* **`StructureLists.mapM_eq_ok`** — a visit of all fields that went well has kept the
  structures, and every field came from its visit.
-/

namespace IdlScope

variable {ε σ α β γ : Type}

/-! ## Steps that may fail -/

theorem bind_eq_ok {x : Except ε α} {f : α → Except ε β} {b : β} :
    (x >>= f) = .ok b ↔ ∃ a, x = .ok a ∧ f a = .ok b := by
  cases x <;> simp [bind, Except.bind]

/-- A sequence fails in its first step, or in its second one after the first gave its result. -/
theorem bind_eq_error {x : Except ε α} {f : α → Except ε β} {e : ε} :
    (x >>= f) = .error e ↔ x = .error e ∨ ∃ a, x = .ok a ∧ f a = .error e := by
  cases x <;> simp [bind, Except.bind]

theorem ok_bind (a : α) (f : α → Except ε β) : (Except.ok a >>= f) = f a := rfl

theorem error_bind (e : ε) (f : α → Except ε β) : (Except.error e >>= f) = .error e := rfl

theorem map_eq_ok {x : Except ε α} {f : α → β} {b : β} :
    x.map f = .ok b ↔ ∃ a, x = .ok a ∧ f a = b := by
  cases x <;> simp [Except.map]

theorem map_eq_error {x : Except ε α} {f : α → β} {e : ε} : x.map f = .error e ↔ x = .error e := by
  cases x <;> simp [Except.map]

theorem pure_eq_ok {a b : α} : (pure a : Except ε α) = .ok b ↔ a = b := by
  simp [pure, Except.pure]

theorem toOption_eq_some {x : Except ε α} {a : α} : x.toOption = some a ↔ x = .ok a := by
  cases x <;> simp [Except.toOption]

theorem mapM_eq_ok {f : α → Except ε β} {xs : List α} {ys : List β} :
    xs.mapM f = .ok ys ↔ List.Forall₂ (fun x y => f x = .ok y) xs ys := by
  induction xs generalizing ys with
  | nil =>
      rw [List.mapM_nil, pure_eq_ok]
      constructor
      · rintro rfl
        exact .nil
      · rintro ⟨⟩
        rfl
  | cons x xs ih =>
      rw [List.mapM_cons, bind_eq_ok]
      constructor
      · rintro ⟨y, hy, h⟩
        obtain ⟨zs, hzs, h⟩ := bind_eq_ok.mp h
        rw [pure_eq_ok] at h
        subst h
        exact .cons hy (ih.mp hzs)
      · rintro (_ | ⟨hy, hzs⟩)
        exact ⟨_, hy, bind_eq_ok.mpr ⟨_, ih.mpr hzs, rfl⟩⟩

theorem mapM_congr {f g : α → Except ε β} {xs : List α} (h : ∀ x ∈ xs, f x = g x) :
    xs.mapM f = xs.mapM g := by
  induction xs with
  | nil => rfl
  | cons x xs ih =>
      rw [List.mapM_cons, List.mapM_cons, h x List.mem_cons_self,
        ih fun y hy => h y (List.mem_cons_of_mem _ hy)]

/-- An optional step goes well if there is nothing to do or if it gives what is there then. -/
theorem optionMapM_eq_ok {f : α → Except ε β} {a : Option α} {b : Option β} :
    a.mapM f = .ok b ↔
      (a = none ∧ b = none) ∨ ∃ x y, a = some x ∧ b = some y ∧ f x = .ok y := by
  cases a with
  | none =>
      rw [Option.mapM_none, pure_eq_ok]
      simp [eq_comm]
  | some x =>
      rw [Option.mapM_some]
      constructor
      · intro h
        obtain ⟨y, hy, rfl⟩ := map_eq_ok.mp h
        exact .inr ⟨x, y, rfl, rfl, hy⟩
      · rintro (⟨h, -⟩ | ⟨x', y, hx, rfl, hy⟩)
        · cases h
        · obtain rfl := Option.some.inj hx
          exact map_eq_ok.mpr ⟨y, hy, rfl⟩

/-- A loop that fails has failed at one of its items. -/
theorem exists_of_mapM_eq_error {f : α → Except ε β} {as : List α} {e : ε}
    (h : as.mapM f = .error e) : ∃ a ∈ as, f a = .error e := by
  induction as with
  | nil => cases h
  | cons a as ih =>
      rw [List.mapM_cons] at h
      rcases bind_eq_error.mp h with ha | ⟨b, -, h⟩
      · exact ⟨a, List.mem_cons_self, ha⟩
      · rcases bind_eq_error.mp h with has | ⟨bs, -, h⟩
        · obtain ⟨c, hc, hfail⟩ := ih has
          exact ⟨c, List.mem_cons_of_mem _ hc, hfail⟩
        · cases h

/-- What a list is related to item by item has something related for each of its items. -/
theorem exists_of_mem_forall₂ {R : α → β → Prop} {as : List α} {bs : List β}
    (h : List.Forall₂ R as bs) {b : β} (hb : b ∈ bs) : ∃ a ∈ as, R a b := by
  induction h with
  | nil => exact absurd hb List.not_mem_nil
  | @cons a c as bs hac _ ih =>
      rcases List.mem_cons.mp hb with rfl | hb
      · exact ⟨a, List.mem_cons_self, hac⟩
      · obtain ⟨a', ha', h⟩ := ih hb
        exact ⟨a', List.mem_cons_of_mem _ ha', h⟩

/-- What is the same of every two related items is the same of the lists. -/
theorem map_eq_of_forall₂ {R : α → β → Prop} {f : α → γ} {g : β → γ} {as : List α} {bs : List β}
    (h : List.Forall₂ R as bs) (hR : ∀ a b, R a b → g b = f a) : bs.map g = as.map f := by
  induction h with
  | nil => rfl
  | cons hab _ ih => rw [List.map_cons, List.map_cons, hR _ _ hab, ih]

theorem flatMap_eq_of_forall₂ {R : α → β → Prop} {f : α → List γ} {g : β → List γ} {as : List α}
    {bs : List β} (h : List.Forall₂ R as bs) (hR : ∀ a b, R a b → g b = f a) :
    bs.flatMap g = as.flatMap f := by
  rw [List.flatMap_def, map_eq_of_forall₂ h hR, ← List.flatMap_def]

/-- A loop that `g` takes back has kept the list, and every item came from its own step. -/
theorem map_of_mapM_eq_ok {f : α → Except ε β} {g : β → α} (hg : ∀ a b, f a = .ok b → g b = a)
    {as : List α} {bs : List β} (h : as.mapM f = .ok bs) :
    bs.map g = as ∧ ∀ b ∈ bs, f (g b) = .ok b := by
  rw [mapM_eq_ok] at h
  induction h with
  | nil => simp
  | @cons a b as bs hab _ ih =>
      have hback := hg a b hab
      refine ⟨by rw [List.map_cons, hback, ih.1], ?_⟩
      intro c hc
      rcases List.mem_cons.mp hc with rfl | hc
      · rw [hback]
        exact hab
      · exact ih.2 c hc

/-! ## Steps with a state -/

theorem run_bind_eq_ok {x : StateT σ (Except ε) α} {f : α → StateT σ (Except ε) β}
    {s t : σ} {b : β} :
    (x >>= f).run s = .ok (b, t) ↔
      ∃ a r, x.run s = .ok (a, r) ∧ (f a).run r = .ok (b, t) := by
  rw [StateT.run_bind, bind_eq_ok]
  constructor
  · rintro ⟨⟨a, r⟩, h, h'⟩
    exact ⟨a, r, h, h'⟩
  · rintro ⟨a, r, h, h'⟩
    exact ⟨(a, r), h, h'⟩

theorem run_pure_eq_ok {a b : α} {s t : σ} :
    (pure a : StateT σ (Except ε) α).run s = .ok (b, t) ↔ a = b ∧ s = t := by
  rw [StateT.run_pure, pure_eq_ok, Prod.mk.injEq]

theorem run_lift_eq_ok {x : Except ε α} {s t : σ} {a : α} :
    (liftM x : StateT σ (Except ε) α).run s = .ok (a, t) ↔ x = .ok a ∧ s = t := by
  cases x with
  | error e => exact ⟨fun h => (by cases h), fun h => (by cases h.1)⟩
  | ok b =>
      rw [show (liftM (Except.ok b : Except ε α) : StateT σ (Except ε) α).run s = .ok (b, s)
        from rfl, Except.ok.injEq, Except.ok.injEq, Prod.mk.injEq]

/-- A step that went well goes on with its result. -/
theorem run_lift_ok_bind {f : α → StateT σ (Except ε) β} {a : α} {s : σ} :
    ((liftM (.ok a : Except ε α) : StateT σ (Except ε) α) >>= f).run s = (f a).run s :=
  rfl

theorem run_map_eq_ok {x : StateT σ (Except ε) α} {f : α → β} {s t : σ} {b : β} :
    (f <$> x).run s = .ok (b, t) ↔ ∃ a r, x.run s = .ok (a, r) ∧ f a = b ∧ r = t := by
  rw [← bind_pure_comp, run_bind_eq_ok]
  simp only [run_pure_eq_ok]

/-- A loop whose steps all give what is known of them gives a list of it. -/
theorem map_run_mapM {f : α → StateM σ β} {g : β → γ} {h : α → γ}
    (hf : ∀ a s, g ((f a).run s).1 = h a) (as : List α) (s : σ) :
    ((as.mapM f).run s).1.map g = as.map h := by
  induction as generalizing s with
  | nil => rfl
  | cons a as ih =>
      have hrun : ((a :: as).mapM f).run s =
          ((f a >>= fun b => as.mapM f >>= fun bs => pure (b :: bs)) :
            StateM σ (List β)).run s := by
        rw [List.mapM_cons]
      rw [hrun, List.map_cons, ← hf a s, ← ih ((f a).run s).2]
      rfl

/-- Whenever the step goes well from a state with `P`, its result and the state after it
have `Q`. -/
def Ensures (P : σ → Prop) (x : StateT σ (Except ε) α) (Q : α → σ → Prop) : Prop :=
  ∀ s a t, P s → x.run s = .ok (a, t) → Q a t

namespace Ensures

variable {P : σ → Prop} {x : StateT σ (Except ε) α} {Q : α → σ → Prop}

theorem weaken {Q' : α → σ → Prop} (h : Ensures P x Q) (hQ : ∀ a s, Q a s → Q' a s) :
    Ensures P x Q' :=
  fun s a t hs hx => hQ a t (h s a t hs hx)

theorem strengthen {P' : σ → Prop} (h : Ensures P x Q) (hP : ∀ s, P' s → P s) :
    Ensures P' x Q :=
  fun s a t hs hx => h s a t (hP s hs) hx

protected theorem pure {a : α} (h : ∀ s, P s → Q a s) :
    Ensures P (pure a : StateT σ (Except ε) α) Q := by
  intro s b t hs hx
  obtain ⟨rfl, rfl⟩ := run_pure_eq_ok.mp hx
  exact h s hs

protected theorem bind {f : α → StateT σ (Except ε) β} {R : β → σ → Prop} (hx : Ensures P x Q)
    (hf : ∀ a, Ensures (Q a) (f a) R) : Ensures P (x >>= f) R := by
  intro s b t hs h
  obtain ⟨a, r, ha, hb⟩ := run_bind_eq_ok.mp h
  exact hf a r b t (hx s a r hs ha) hb

protected theorem map {f : α → β} {R : β → σ → Prop} (hx : Ensures P x fun a s => R (f a) s) :
    Ensures P (f <$> x) R := by
  rw [← bind_pure_comp]
  exact .bind hx fun _ => .pure fun _ h => h

/-- A step that goes by the state it starts from. -/
theorem bind_get {f : σ → StateT σ (Except ε) β} {R : β → σ → Prop}
    (h : ∀ s, P s → Ensures P (f s) R) : Ensures P (get >>= f) R := by
  intro s b t hs hx
  exact h s hs s b t hs hx

protected theorem set {r : σ} {Q : PUnit → σ → Prop} (h : (∃ s, P s) → Q ⟨⟩ r) :
    Ensures P (set r : StateT σ (Except ε) PUnit) Q := by
  intro s a t hs hx
  cases hx
  exact h ⟨s, hs⟩

protected theorem modify {f : σ → σ} {Q : PUnit → σ → Prop} (h : ∀ s, P s → Q ⟨⟩ (f s)) :
    Ensures P (modify f : StateT σ (Except ε) PUnit) Q := by
  intro s a t hs hx
  cases hx
  exact h s hs

/-- A step that may fail and leaves the state alone. -/
protected theorem lift {y : Except ε α} (h : ∀ a s, y = .ok a → P s → Q a s) :
    Ensures P (liftM y : StateT σ (Except ε) α) Q := by
  intro s a t hs hx
  cases y with
  | error e => cases hx
  | ok b =>
      cases hx
      exact h _ _ rfl hs

protected theorem throw {e : ε} : Ensures P (throw e : StateT σ (Except ε) α) Q := by
  intro s a t _ hx
  cases hx

/-- What is known of no state is known from the start. -/
theorem given {p : Prop} (h : p → Ensures P x Q) : Ensures (fun s => p ∧ P s) x Q :=
  fun s a t hs hx => h hs.1 s a t hs.2 hx

/-- What is known of some thing is known of it from the start. -/
theorem of_exists {P : γ → σ → Prop} (h : ∀ c, Ensures (P c) x Q) :
    Ensures (fun s => ∃ c, P c s) x Q :=
  fun s a t ⟨c, hs⟩ hx => h c s a t hs hx

protected theorem forM {f : α → StateT σ (Except ε) PUnit} :
    ∀ xs : List α, (∀ x ∈ xs, Ensures P (f x) (fun _ => P)) →
      Ensures P (xs.forM f) (fun _ => P)
  | [], _ => .pure fun _ hs => hs
  | x :: xs, h => .bind (h x List.mem_cons_self) fun _ =>
      Ensures.forM xs fun y hy => h y (List.mem_cons_of_mem _ hy)

/-- A loop gives a list of what its steps give. -/
protected theorem mapM {f : α → StateT σ (Except ε) β} {g : β → γ} {h : α → γ}
    (hf : ∀ a, Ensures (fun _ => True) (f a) fun b _ => g b = h a) (as : List α) :
    Ensures (fun _ => True) (as.mapM f) fun bs _ => bs.map g = as.map h := by
  induction as with
  | nil => exact .pure fun _ _ => rfl
  | cons a as ih =>
      intro s bs t _ hrun
      rw [List.mapM_cons] at hrun
      obtain ⟨b, r, hb, hrun⟩ := run_bind_eq_ok.mp hrun
      obtain ⟨bs, r', hbs, hrun⟩ := run_bind_eq_ok.mp hrun
      obtain ⟨rfl, rfl⟩ := run_pure_eq_ok.mp hrun
      rw [List.map_cons, List.map_cons, hf a s b r trivial hb, ih r bs r' trivial hbs]

end Ensures

/-- Whatever state it starts from, the step gives something with `Q`, or fails with an error that
has `E`. -/
structure Answers (x : StateT σ (Except ε) α) (Q : α → Prop) (E : ε → Prop) : Prop where
  gives : ∀ s a t, x.run s = .ok (a, t) → Q a
  fails : ∀ s e, x.run s = .error e → E e

namespace Answers

variable {x : StateT σ (Except ε) α} {Q : α → Prop} {E : ε → Prop}

theorem weaken {Q' : α → Prop} (h : Answers x Q E) (hQ : ∀ a, Q a → Q' a) : Answers x Q' E :=
  ⟨fun s a t hx => hQ a (h.gives s a t hx), h.fails⟩

protected theorem pure {a : α} (h : Q a) : Answers (pure a : StateT σ (Except ε) α) Q E where
  gives := by
    intro s b t hx
    obtain ⟨rfl, -⟩ := run_pure_eq_ok.mp hx
    exact h
  fails := fun _ _ hx => (by cases hx)

protected theorem bind {f : α → StateT σ (Except ε) β} {R : β → Prop} (hx : Answers x Q E)
    (hf : ∀ a, Q a → Answers (f a) R E) : Answers (x >>= f) R E where
  gives := by
    intro s b t h
    obtain ⟨a, r, ha, hb⟩ := run_bind_eq_ok.mp h
    exact (hf a (hx.gives s a r ha)).gives r b t hb
  fails := by
    intro s e h
    rw [StateT.run_bind] at h
    rcases bind_eq_error.mp h with h | ⟨⟨a, r⟩, ha, h⟩
    · exact hx.fails s e h
    · exact (hf a (hx.gives s a r ha)).fails r e h

protected theorem map {f : α → β} {R : β → Prop} (hx : Answers x (fun a => R (f a)) E) :
    Answers (f <$> x) R E := by
  rw [← bind_pure_comp]
  exact .bind hx fun _ h => .pure h

protected theorem get : Answers (get : StateT σ (Except ε) σ) (fun _ => True) E :=
  ⟨fun _ _ _ _ => trivial, fun _ _ hx => (by cases hx)⟩

protected theorem set (r : σ) : Answers (set r : StateT σ (Except ε) PUnit) (fun _ => True) E :=
  ⟨fun _ _ _ _ => trivial, fun _ _ hx => (by cases hx)⟩

protected theorem modify (f : σ → σ) :
    Answers (modify f : StateT σ (Except ε) PUnit) (fun _ => True) E :=
  ⟨fun _ _ _ _ => trivial, fun _ _ hx => (by cases hx)⟩

protected theorem throw {e : ε} (h : E e) : Answers (throw e : StateT σ (Except ε) α) Q E :=
  ⟨fun _ _ _ hx => (by cases hx), fun _ _ hx => (by cases hx; exact h)⟩

protected theorem lift {y : Except ε α} (hok : ∀ a, y = .ok a → Q a)
    (herror : ∀ e, y = .error e → E e) : Answers (liftM y : StateT σ (Except ε) α) Q E where
  gives := by
    intro s a t hx
    exact hok a (run_lift_eq_ok.mp hx).1
  fails := by
    intro s e hx
    cases y with
    | error e' =>
        cases hx
        exact herror e rfl
    | ok a => cases hx

/-- A loop without an error has gone through all its items. -/
protected theorem forM {f : α → StateT σ (Except ε) PUnit} {G : α → Prop} (xs : List α)
    (h : ∀ x ∈ xs, Answers (f x) (fun _ => G x) E) :
    Answers (xs.forM f) (fun _ => ∀ x ∈ xs, G x) E := by
  induction xs with
  | nil => exact .pure fun _ hx => absurd hx List.not_mem_nil
  | cons x xs ih =>
      refine .bind (h x List.mem_cons_self) fun _ hx => ?_
      exact (ih fun y hy => h y (List.mem_cons_of_mem _ hy)).weaken fun _ hxs =>
        List.forall_mem_cons.mpr ⟨hx, hxs⟩

end Answers

/-! ## Visits of all fields -/

namespace Slot

/-- The slot with every field changed. -/
def map (f : α → β) (s : Slot α) : Slot β :=
  ⟨f s.field, s.expanded.map (List.map f)⟩

@[simp] theorem isExpanded_map (f : α → β) (s : Slot α) : (s.map f).isExpanded = s.isExpanded := by
  simp [isExpanded, map]

@[simp] theorem children_map (f : α → β) (s : Slot α) : (s.map f).children = s.children.map f := by
  cases h : s.expanded <;> simp [children, map, h]

@[simp] theorem all_map (f : α → β) (s : Slot α) : (s.map f).all = s.all.map f := by
  rw [all, all, children_map]
  rfl

@[simp] theorem flattened_map (f : α → β) (s : Slot α) :
    (s.map f).flattened = s.flattened.map f := by
  cases h : s.expanded <;> simp [flattened, map, h]

theorem map_map (f : α → β) (g : β → γ) (s : Slot α) : (s.map f).map g = s.map (g ∘ f) := by
  cases h : s.expanded <;> simp [map, h]

/-- A visit that `g` takes back has kept the slot, and every field came from its visit. -/
protected theorem mapM_eq_ok {f : α → Except ε β} {g : β → α} (hg : ∀ a b, f a = .ok b → g b = a)
    {s : Slot α} {t : Slot β} (h : s.mapM f = .ok t) :
    t.map g = s ∧ ∀ b ∈ t.all, f (g b) = .ok b := by
  obtain ⟨field, hfield, h⟩ := bind_eq_ok.mp h
  -- the field itself is visited first, then what stands in its place
  cases hs : s.expanded with
  | none =>
      rw [hs] at h
      obtain rfl := pure_eq_ok.mp h
      have hback := hg _ _ hfield
      constructor
      · cases s
        simp_all [map]
      · simp [all, children, hback, hfield]
  | some as =>
      rw [hs] at h
      obtain ⟨bs, hbs, h⟩ := bind_eq_ok.mp h
      obtain rfl := pure_eq_ok.mp h
      have hback := hg _ _ hfield
      obtain ⟨hmap, hall⟩ := map_of_mapM_eq_ok hg hbs
      constructor
      · cases s
        simp_all [map]
      · intro b hb
        rcases List.mem_cons.mp hb with rfl | hb
        · rw [hback]
          exact hfield
        · exact hall b hb

theorem mapM_congr {f g : α → Except ε β} {s : Slot α} (h : ∀ a ∈ s.all, f a = g a) :
    s.mapM f = s.mapM g := by
  rw [Slot.mapM, Slot.mapM]
  rw [h s.field List.mem_cons_self]
  cases hs : s.expanded with
  | none => rfl
  | some as =>
      dsimp only
      rw [IdlScope.mapM_congr fun a ha => h a (List.mem_cons_of_mem _ (by
        rw [children, hs]
        exact ha))]

end Slot

namespace Structure

/-- The structure with every field changed. -/
def map (f : α → β) (s : Structure α) : Structure β :=
  { s with slots := s.slots.map (Slot.map f) }

@[simp] theorem slots_map (f : α → β) (s : Structure α) :
    (s.map f).slots = s.slots.map (Slot.map f) := rfl

@[simp] theorem allFields_map (f : α → β) (s : Structure α) :
    (s.map f).allFields = s.allFields.map f := by
  simp [allFields, List.flatMap_map, List.map_flatMap]

theorem mem_allFields_of_flattened {s : Structure α} {f : α} (h : f ∈ s.flattenedFields) :
    f ∈ s.allFields := by
  obtain ⟨slot, hslot, hf⟩ := List.mem_flatMap.mp h
  refine List.mem_flatMap.mpr ⟨slot, hslot, ?_⟩
  rw [Slot.flattened] at hf
  split at hf
  · rw [List.mem_singleton.mp hf]
    exact List.mem_cons_self
  · next fields hfields =>
    refine List.mem_cons_of_mem _ ?_
    rwa [Slot.children, hfields]

@[simp] theorem flattenedFields_map (f : α → β) (s : Structure α) :
    (s.map f).flattenedFields = s.flattenedFields.map f := by
  simp [flattenedFields, List.flatMap_map, List.map_flatMap]

theorem map_map (f : α → β) (g : β → γ) (s : Structure α) :
    (s.map f).map g = s.map (g ∘ f) := by
  simp [map, Slot.map_map, Function.comp_def]

protected theorem mapM_eq_ok {f : String → α → Except ε β} {g : β → α}
    (hg : ∀ n a b, f n a = .ok b → g b = a) {s : Structure α} {t : Structure β}
    (h : s.mapM f = .ok t) :
    t.map g = s ∧ ∀ b ∈ t.allFields, f s.source (g b) = .ok b := by
  obtain ⟨slots, hslots, h⟩ := bind_eq_ok.mp h
  obtain rfl := pure_eq_ok.mp h
  have hslot := fun (a : Slot α) (b : Slot β) =>
    Slot.mapM_eq_ok (s := a) (t := b) (hg s.source)
  obtain ⟨hmap, hall⟩ := map_of_mapM_eq_ok (fun a b hab => (hslot a b hab).1) hslots
  constructor
  · simp [map, hmap]
  · intro b hb
    obtain ⟨slot, hmem, hb⟩ := List.mem_flatMap.mp hb
    exact (hslot _ _ (hall slot hmem)).2 b hb

theorem mapM_congr {f g : String → α → Except ε β} {s : Structure α}
    (h : ∀ a ∈ s.allFields, f s.source a = g s.source a) : s.mapM f = s.mapM g := by
  rw [Structure.mapM, Structure.mapM]
  rw [IdlScope.mapM_congr fun slot hslot => Slot.mapM_congr fun a ha =>
    h a (List.mem_flatMap.mpr ⟨slot, hslot, ha⟩)]

end Structure

namespace StructureLists

/-- The structures with every field changed. -/
def map (f : α → β) (l : StructureLists α) : StructureLists β :=
  ⟨l.structs.map (Structure.map f), l.unions.map (Structure.map f),
    l.exceptions.map (Structure.map f), l.madeUp.map (Structure.map f)⟩

@[simp] theorem all_map (f : α → β) (l : StructureLists α) :
    (l.map f).all = l.all.map (Structure.map f) := by
  simp [all, map]

theorem map_map (f : α → β) (g : β → γ) (l : StructureLists α) :
    (l.map f).map g = l.map (g ∘ f) := by
  simp [map, Structure.map_map, Function.comp_def]

/-- A visit that `g` takes back has kept the structures, and every field came from its visit. -/
protected theorem mapM_eq_ok {f : String → α → Except ε β} {g : β → α}
    (hg : ∀ n a b, f n a = .ok b → g b = a) {l : StructureLists α} {m : StructureLists β}
    (h : l.mapM f = .ok m) :
    m.map g = l ∧ ∀ s ∈ m.all, ∀ b ∈ s.allFields, f s.source (g b) = .ok b := by
  -- the four lists are visited alike, one behind the other
  have hlist : ∀ {as : List (Structure α)} {bs : List (Structure β)},
      as.mapM (Structure.mapM f) = .ok bs →
      bs.map (Structure.map g) = as ∧
        ∀ s ∈ bs, ∀ b ∈ s.allFields, f s.source (g b) = .ok b := by
    intro as bs h
    obtain ⟨hmap, hall⟩ :=
      map_of_mapM_eq_ok (fun a b hab => (Structure.mapM_eq_ok hg hab).1) h
    exact ⟨hmap, fun s hs b hb => (Structure.mapM_eq_ok hg (hall s hs)).2 b hb⟩
  obtain ⟨structs, h₁, h⟩ := bind_eq_ok.mp h
  obtain ⟨unions, h₂, h⟩ := bind_eq_ok.mp h
  obtain ⟨exceptions, h₃, h⟩ := bind_eq_ok.mp h
  obtain ⟨madeUp, h₄, h⟩ := bind_eq_ok.mp h
  obtain rfl := pure_eq_ok.mp h
  obtain ⟨m₁, a₁⟩ := hlist h₁
  obtain ⟨m₂, a₂⟩ := hlist h₂
  obtain ⟨m₃, a₃⟩ := hlist h₃
  obtain ⟨m₄, a₄⟩ := hlist h₄
  refine ⟨by simp [map, m₁, m₂, m₃, m₄], ?_⟩
  intro s hs
  simp only [all, List.mem_append] at hs
  rcases hs with ((hs | hs) | hs) | hs
  · exact a₁ s hs
  · exact a₂ s hs
  · exact a₃ s hs
  · exact a₄ s hs

/-- Visits that agree on every field are one visit. -/
theorem mapM_congr {f g : String → α → Except ε β} {l : StructureLists α}
    (h : ∀ s ∈ l.all, ∀ a ∈ s.allFields, f s.source a = g s.source a) : l.mapM f = l.mapM g := by
  have hlist : ∀ {as : List (Structure α)}, (∀ s ∈ as, s ∈ l.all) →
      as.mapM (Structure.mapM f) = as.mapM (Structure.mapM g) := by
    intro as has
    exact IdlScope.mapM_congr fun s hs => Structure.mapM_congr (h s (has s hs))
  have hmem : ∀ s, s ∈ l.all ↔ s ∈ l.structs ∨ s ∈ l.unions ∨ s ∈ l.exceptions ∨ s ∈ l.madeUp := by
    simp [all]
  rw [StructureLists.mapM, StructureLists.mapM]
  rw [hlist fun s hs => (hmem s).mpr (.inl hs),
    hlist fun s hs => (hmem s).mpr (.inr (.inl hs)),
    hlist fun s hs => (hmem s).mpr (.inr (.inr (.inl hs))),
    hlist fun s hs => (hmem s).mpr (.inr (.inr (.inr hs)))]

end StructureLists

end IdlScope

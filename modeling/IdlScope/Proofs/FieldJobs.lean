import IdlScope.Proofs.Persistence
import IdlScope.Scope.FieldJobs

/-!
# Field jobs — resolving fields side by side and one after the other

The fields of a file are a list of jobs, each told by where its field stands. A visit of the
structures in their nested form is a visit of that list: the fields are met in the order of the
jobs, and what the visit gives for a field stands where its job says.

* **`StructureLists.jobs_fieldAt?`** — the jobs lead to the fields, in order.
* **`StructureLists.fields_mapM`**, **`StructureLists.fieldAt?_of_mapM`** — in every monad the
  nested visit meets the fields in the order of the jobs, and its results take their places.
* **`Document.outcome_of_ok`**, **`Document.outcome_of_error`** — resolving side by side gives the
  scope that resolving one after the other gives. Where the latter fails, its error is the first
  of those that may be reported.
-/

namespace IdlScope

/-! ## The fields as a list -/

section Lists

variable {m : Type → Type} [Monad m] [LawfulMonad m] {α β γ δ : Type}

/-- Visiting parts one behind the other is visiting all they consist of. -/
theorem flatMap_map_mapM {f : α → m β} {g : γ → m δ} {p : δ → List β} {q : γ → List α}
    (h : ∀ c, p <$> g c = (q c).mapM f) (cs : List γ) :
    (·.flatMap p) <$> cs.mapM g = (cs.flatMap q).mapM f := by
  induction cs with
  | nil => simp
  | cons c cs ih =>
      rw [List.flatMap_cons, List.mapM_append, ← h, ← ih, List.mapM_cons]
      simp

theorem Slot.all_mapM (f : α → m β) (s : Slot α) : Slot.all <$> s.mapM f = s.all.mapM f := by
  obtain ⟨field, expanded⟩ := s
  cases expanded <;> simp [Slot.mapM, Slot.all, Slot.children]

/-- The fields of a structure, each with the source name of the structure. -/
def Structure.ownedFields (s : Structure α) : List (String × α) :=
  s.allFields.map (s.source, ·)

theorem Structure.ownedFields_mapM (f : String → α → m β) (s : Structure α) :
    Structure.ownedFields <$> s.mapM f =
      s.ownedFields.mapM fun p => (p.1, ·) <$> f p.1 p.2 := by
  have hall := flatMap_map_mapM (Slot.all_mapM (f s.source)) s.slots
  have hdef : Structure.ownedFields <$> s.mapM f =
      (fun bs => bs.map (s.source, ·)) <$> (·.flatMap Slot.all) <$>
        s.slots.mapM (Slot.mapM (f s.source)) := by
    simp [Structure.mapM, Structure.ownedFields, Structure.allFields, Structure.source]
  rw [hdef, hall, Structure.ownedFields, Structure.allFields]
  generalize s.slots.flatMap Slot.all = as
  induction as with
  | nil => simp
  | cons a as ih => simp [List.mapM_cons, ← ih]

namespace StructureLists

/-- Every field, each with the source name of its structure, in the order of a visit. -/
def fields (l : StructureLists α) : List (String × α) :=
  l.all.flatMap Structure.ownedFields

/-- A visit meets the fields in order. -/
theorem fields_mapM (f : String → α → m β) (l : StructureLists α) :
    StructureLists.fields <$> l.mapM f = l.fields.mapM fun p => (p.1, ·) <$> f p.1 p.2 := by
  have hall : StructureLists.all <$> l.mapM f = l.all.mapM (Structure.mapM f) := by
    simp [StructureLists.mapM, StructureLists.all]
  have h := flatMap_map_mapM (Structure.ownedFields_mapM f) l.all
  rw [← hall, Functor.map_map] at h
  exact h

end StructureLists

end Lists

/-! ## Jobs -/

/-- The elements of a list with their places, one behind the other. -/
theorem flatMap_zipIdx {α β : Type} {xs : List α} {g : α × Nat → List β} {h : α → List β}
    (hg : ∀ x i, xs[i]? = some x → g (x, i) = h x) : xs.zipIdx.flatMap g = xs.flatMap h := by
  have hcongr : xs.zipIdx.flatMap g = xs.zipIdx.flatMap fun p => h p.1 := by
    refine List.flatMap_congr fun p hp => ?_
    exact hg p.1 p.2 (List.mem_zipIdx_iff_getElem?.mp hp)
  rw [hcongr, ← List.flatMap_map Prod.fst h, List.zipIdx_map_fst]

namespace StructureLists

variable {α β : Type}

theorem all_eq_flatMap_row (l : StructureLists α) : l.all = StructureRow.all.flatMap l.row := by
  simp [all, StructureRow.all, row]

/-- The jobs lead to the fields, in order. -/
theorem jobs_fieldAt? (l : StructureLists α) : l.jobs.map l.fieldAt? = l.fields.map some := by
  rw [jobs, fields, all_eq_flatMap_row, List.flatMap_assoc, List.map_flatMap, List.map_flatMap]
  refine List.flatMap_congr fun r _ => ?_
  rw [List.map_flatMap, List.map_flatMap]
  refine flatMap_zipIdx fun s i hs => ?_
  rw [Structure.ownedFields, Structure.allFields, List.map_flatMap, List.map_flatMap,
    List.map_flatMap]
  refine flatMap_zipIdx fun slot j hslot => ?_
  have hchildren : (List.range slot.children.length).map (fun child => slot.children[child]?) =
      slot.children.map some := by
    refine List.ext_getElem? fun n => ?_
    by_cases hn : n < slot.children.length <;> simp [hn]
  have hmap := congrArg (List.map (Option.map (s.source, ·))) hchildren
  simp only [List.map_map, Function.comp_def] at hmap
  simpa [fieldAt?, hs, hslot, Slot.all, Function.comp_def] using hmap

/-- Structures of one shape have the same jobs. -/
theorem jobs_map (f : α → β) (l : StructureLists α) : (l.map f).jobs = l.jobs := by
  have hrow : ∀ r, (l.map f).row r = (l.row r).map (Structure.map f) := by
    intro r
    cases r <;> rfl
  rw [jobs, jobs]
  refine List.flatMap_congr fun r _ => ?_
  simp only [hrow, List.zipIdx_map, List.flatMap_map, Prod.map_fst, Prod.map_snd, id_eq,
    Structure.slots_map, Slot.children_map, List.length_map]

theorem fieldAt?_map (f : α → β) (l : StructureLists α) (job : FieldJob) :
    (l.map f).fieldAt? job = (l.fieldAt? job).map fun p => (p.1, f p.2) := by
  have hrow : (l.map f).row job.row = (l.row job.row).map (Structure.map f) := by
    cases job.row <;> rfl
  have hsource : ∀ s : Structure α, (s.map f).source = s.source := fun _ => rfl
  rw [fieldAt?, fieldAt?, hrow, List.getElem?_map]
  cases (l.row job.row)[job.structureAt]? with
  | none => rfl
  | some s =>
      simp only [Option.map_some, Option.bind_eq_bind, Option.bind_some, Structure.slots_map,
        List.getElem?_map, hsource]
      cases s.slots[job.slotAt]? with
      | none => rfl
      | some slot =>
          cases job.childAt with
          | none => rfl
          | some child => simp [Function.comp_def]

theorem mem_of_fieldAt? {l : StructureLists α} {job : FieldJob} {owner : String} {a : α}
    (h : l.fieldAt? job = some (owner, a)) : ∃ s ∈ l.all, s.source = owner ∧ a ∈ s.allFields := by
  obtain ⟨s, hs, h⟩ := Option.bind_eq_some_iff.mp h
  obtain ⟨slot, hslot, h⟩ := Option.bind_eq_some_iff.mp h
  have hall : s ∈ l.all := by
    rw [all_eq_flatMap_row]
    refine List.mem_flatMap.mpr ⟨job.row, ?_, List.mem_of_getElem? hs⟩
    cases job.row <;> simp [StructureRow.all]
  have hfield : (s.source, a) = (owner, a) ∧ a ∈ slot.all := by
    cases hchild : job.childAt with
    | none =>
        rw [hchild] at h
        cases h
        exact ⟨rfl, List.mem_cons_self⟩
    | some child =>
        rw [hchild] at h
        obtain ⟨b, hb, heq⟩ := Option.map_eq_some_iff.mp h
        cases heq
        exact ⟨rfl, List.mem_cons_of_mem _ (List.mem_of_getElem? hb)⟩
  exact ⟨s, hall, (Prod.mk.inj hfield.1).1,
    List.mem_flatMap.mpr ⟨slot, List.mem_of_getElem? hslot, hfield.2⟩⟩

/-- What a visit gives for a field stands at the place of its job. -/
theorem fieldAt?_of_mapM {ε : Type} {f : String → α → Except ε β} {g : β → α}
    (hg : ∀ n a b, f n a = .ok b → g b = a) {l : StructureLists α} {l' : StructureLists β}
    (h : l.mapM f = .ok l') :
    l'.jobs = l.jobs ∧ ∀ job owner a, l.fieldAt? job = some (owner, a) →
      ∃ b, l'.fieldAt? job = some (owner, b) ∧ f owner a = .ok b := by
  have hback := (StructureLists.mapM_eq_ok hg h).1
  have hjobs : l'.jobs = l.jobs := by rw [← hback, jobs_map]
  refine ⟨hjobs, fun job owner a ha => ?_⟩
  rw [← hback, fieldAt?_map] at ha
  obtain ⟨⟨owner', b⟩, hb, heq⟩ := Option.map_eq_some_iff.mp ha
  obtain ⟨rfl, rfl⟩ := Prod.mk.inj heq
  obtain ⟨s, hs, rfl, hmem⟩ := mem_of_fieldAt? hb
  exact ⟨b, hb, (StructureLists.mapM_eq_ok hg h).2 s hs b hmem⟩

end StructureLists

/-! ## Errors of jobs -/

section Errors

variable {ε ε' α β : Type}

/-- The error of a computation that fails. -/
def errorOf? : Except ε α → Option ε
  | .ok _ => none
  | .error e => some e

/-- A loop fails with the first error of its elements, and goes well if none has one. -/
theorem errors_mapM (f : α → Except ε β) (as : List α) :
    (∀ e, as.mapM f = .error e → (as.filterMap fun a => errorOf? (f a)).head? = some e) ∧
    ∀ bs, as.mapM f = .ok bs → as.filterMap (fun a => errorOf? (f a)) = [] := by
  induction as with
  | nil => simp [pure, Except.pure]
  | cons a as ih =>
      rw [List.mapM_cons]
      cases ha : f a with
      | error e =>
          refine ⟨fun e' h => ?_, fun bs h => by cases h⟩
          cases h
          simp [ha, errorOf?]
      | ok b =>
          rw [List.filterMap_cons_none (by rw [ha, errorOf?])]
          constructor
          · intro e h
            rcases bind_eq_error.mp h with h | ⟨_, _, h⟩
            · cases h
            · rcases bind_eq_error.mp h with h | ⟨_, _, h⟩
              · exact ih.1 e h
              · cases h
          · intro bs h
            obtain ⟨_, -, h⟩ := bind_eq_ok.mp h
            obtain ⟨bs', hbs, -⟩ := bind_eq_ok.mp h
            exact ih.2 bs' hbs

end Errors

variable {l : Library}

theorem Roster.fieldErrors_eq (r : Roster) (own : Place) :
    r.fieldErrors l own =
      r.structures.fields.filterMap fun p => errorOf? (l.resolveField own p.1 p.2) := by
  have hjob : r.fieldErrors l own = (r.structures.jobs.map r.structures.fieldAt?).filterMap
      fun found => found.bind fun p => errorOf? (l.resolveField own p.1 p.2) := by
    rw [fieldErrors, List.filterMap_map]
    refine List.filterMap_congr fun job _ => ?_
    simp only [Function.comp_apply, Option.bind_eq_bind]
    congr 1
    funext p
    cases l.resolveField own p.1 p.2 <;> rfl
  rw [hjob, StructureLists.jobs_fieldAt?, List.filterMap_map]
  rfl

/-- Resolving the fields one after the other fails with the first of the errors that they have. -/
theorem Roster.errors_resolve (r : Roster) (own : Place) :
    (∀ e, r.structures.mapM (l.resolveField own) = .error e →
      (r.fieldErrors l own).head? = some e) ∧
    ∀ resolved, r.structures.mapM (l.resolveField own) = .ok resolved →
      r.fieldErrors l own = [] := by
  have hvisit := StructureLists.fields_mapM (l.resolveField own) r.structures
  have herrors := errors_mapM (fun p : String × NamedField =>
    (p.1, ·) <$> l.resolveField own p.1 p.2) r.structures.fields
  have hsame : ∀ p : String × NamedField,
      errorOf? ((p.1, ·) <$> l.resolveField own p.1 p.2) =
        errorOf? (l.resolveField own p.1 p.2) := by
    intro p
    cases l.resolveField own p.1 p.2 <;> rfl
  simp only [hsame, ← r.fieldErrors_eq own] at herrors
  rw [← hvisit] at herrors
  constructor
  · intro e h
    exact herrors.1 e (by rw [h]; rfl)
  · intro resolved h
    exact herrors.2 resolved.fields (by rw [h]; rfl)

theorem Roster.outcome_def (r : Roster) (g : Language) (d : Document) (k : Linkage) :
    r.outcome g l d k =
      match r.fieldErrors l (r.place d k) with
      | [] => (r.scope g l d k).mapError ([·])
      | errors => .error errors := rfl

theorem Roster.outcome_of_ok {r : Roster} {g : Language} {d : Document} {k : Linkage} {s : Scope}
    (h : r.scope g l d k = .ok s) : r.outcome g l d k = .ok s := by
  obtain ⟨resolved, hresolved, -⟩ := bind_eq_ok.mp h
  rw [outcome_def, (r.errors_resolve (r.place d k)).2 resolved hresolved, h]
  rfl

/-- Finishing fails with the first of the errors that may be reported. -/
theorem Roster.outcome_of_error {r : Roster} {g : Language} {d : Document} {k : Linkage}
    {e : ResolveError} (h : r.scope g l d k = .error e) :
    ∃ more, r.outcome g l d k = .error (e :: more) := by
  rcases bind_eq_error.mp h with hfields | ⟨resolved, hresolved, -⟩
  · obtain ⟨more, hmore⟩ := List.head?_eq_some_iff.mp ((r.errors_resolve _).1 e hfields)
    refine ⟨more, ?_⟩
    rw [outcome_def, show r.fieldErrors l (r.place d k) = e :: more from hmore]
  · refine ⟨[], ?_⟩
    rw [outcome_def, (r.errors_resolve (r.place d k)).2 resolved hresolved, h]
    rfl

theorem Document.outcome_eq_bind (d : Document) (o : Options) (l : Library) (k : Linkage) :
    d.outcome o l k = (Site.roster ⟨o, l, d.bare k⟩).mapError ([·]) >>= fun r =>
      (r.outcome o.language l d k).mapError (·.map .resolve) :=
  rfl

/-- A document has the scope that resolving its fields one after the other gives. -/
theorem Document.outcome_of_ok {d : Document} {o : Options} {k : Linkage} {s : Scope}
    (h : d.scope o l k = .ok s) : d.outcome o l k = .ok s := by
  rw [scope_eq_bind] at h
  obtain ⟨r, hr, hscope⟩ := bind_eq_ok.mp h
  rw [outcome_eq_bind, hr]
  cases hfinished : r.scope o.language l d k with
  | error e =>
      rw [hfinished] at hscope
      cases hscope
  | ok t =>
      rw [hfinished] at hscope
      cases hscope
      exact congrArg (Except.mapError (List.map BuildError.resolve))
        (Roster.outcome_of_ok hfinished)

/-- Where resolving the fields one after the other fails, its error is the first of those that
may be reported. -/
theorem Document.outcome_of_error {d : Document} {o : Options} {k : Linkage} {e : BuildError}
    (h : d.scope o l k = .error e) : ∃ more, d.outcome o l k = .error (e :: more) := by
  rw [scope_eq_bind] at h
  rw [outcome_eq_bind]
  rcases bind_eq_error.mp h with hr | ⟨r, hr, hscope⟩
  · rw [hr]
    exact ⟨[], rfl⟩
  · rw [hr]
    cases hfinished : r.scope o.language l d k with
    | ok t =>
        rw [hfinished] at hscope
        cases hscope
    | error e' =>
        rw [hfinished] at hscope
        cases hscope
        obtain ⟨more, hmore⟩ := Roster.outcome_of_error hfinished
        exact ⟨more.map .resolve, congrArg (Except.mapError (List.map BuildError.resolve)) hmore⟩

theorem Document.outcome_eq_ok_iff {d : Document} {o : Options} {k : Linkage} {s : Scope} :
    d.outcome o l k = .ok s ↔ d.scope o l k = .ok s := by
  refine ⟨fun h => ?_, outcome_of_ok⟩
  cases hscope : d.scope o l k with
  | ok t => exact congrArg Except.ok (Except.ok.inj ((outcome_of_ok hscope).symm.trans h))
  | error e =>
      obtain ⟨more, hmore⟩ := outcome_of_error hscope
      cases hmore.symm.trans h

/-- A document that fails has an error to report. -/
theorem Document.ne_nil_of_outcome {d : Document} {o : Options} {k : Linkage}
    {errors : List BuildError} (h : d.outcome o l k = .error errors) : errors ≠ [] := by
  cases hscope : d.scope o l k with
  | ok s => cases (outcome_of_ok hscope).symm.trans h
  | error e =>
      obtain ⟨more, hmore⟩ := outcome_of_error hscope
      cases hmore.symm.trans h
      exact List.cons_ne_nil e more

end IdlScope

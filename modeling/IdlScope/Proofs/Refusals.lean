import IdlScope.Proofs.Rosters

/-!
# Refusals — why a file has no roster

Naming fails for a few reasons only, and each is the fault of something in the file. The other way
round, a file that got its roster has gone through the checks of every structure in it:

* **`Site.Refuses`** — the errors that naming may end with, and what is behind each.
* **`Site.Numbered`** — a structure whose fields were planned without taking a number twice.
* **`Site.answers_install`** — naming a file gives every structure in it a number for each field,
  or it ends with one of these errors.
* **`Site.numbered_of_roster`**, **`Site.refuses_of_roster`** — the same of a finished roster, and
  of one that failed.
-/

namespace IdlScope

theorem identified_eq_error {file raw : String} {e : BuildError}
    (h : identified file raw = .error e) : e = .invalidIdentifier file raw := by
  rw [identified] at h
  split at h
  · cases h
  · exact (Except.error.inj h).symm

namespace FieldDecl

variable {o : Options} {file owner : String} {home : Home} {f parent child : FieldDecl}
  {e : BuildError}

theorem plan_eq_error (h : f.plan o file = .error e) : ∃ raw, e = .invalidIdentifier file raw := by
  rcases bind_eq_error.mp h with h | ⟨stem, -, h⟩
  · exact ⟨_, identified_eq_error h⟩
  · cases h

theorem childPlan_eq_error (h : parent.childPlan o file owner home child = .error e) :
    (∃ raw, e = .invalidIdentifier file raw) ∨
      expandedId? child.id parent.id = none ∧ e = .idOutOfRange file owner child.name := by
  rw [childPlan] at h
  split at h
  · next hid => exact .inr ⟨hid, (Except.error.inj h).symm⟩
  · rcases bind_eq_error.mp h with h | ⟨stem, -, h⟩
    · exact .inl ⟨_, identified_eq_error h⟩
    · cases h

end FieldDecl

/-- Planning fails at a name that cannot be exported, or at a child whose number is out of range. -/
theorem planSlots_eq_error {o : Options} {l : Library} {p : Place} {s : StructDecl}
    {e : BuildError} (h : planSlots o l p s = .error e) :
    (∃ raw, e = .invalidIdentifier p.directory.filename raw) ∨
      ∃ f ∈ s.fields, ∃ q target, f.expansion? l p = some (q, target) ∧
        ∃ child ∈ target.fields, expandedId? child.id f.id = none ∧
          e = .idOutOfRange p.directory.filename s.name child.name := by
  rcases bind_eq_error.mp h with h | ⟨plans, hplans, h⟩
  · obtain ⟨f, -, hf⟩ := exists_of_mapM_eq_error h
    exact .inl (FieldDecl.plan_eq_error hf)
  · obtain ⟨plan, hplan, h⟩ := exists_of_mapM_eq_error h
    obtain ⟨f, hf, hdecl⟩ := exists_of_mem_forall₂ (mapM_eq_ok.mp hplans) hplan
    obtain ⟨rfl, -⟩ := plan_eq_ok hdecl
    split at h
    · cases h
    · next q target hfound =>
      rcases bind_eq_error.mp h with h | ⟨children, -, h⟩
      · obtain ⟨child, hchild, hfail⟩ := exists_of_mapM_eq_error h
        obtain hraw | ⟨hid, heq⟩ := FieldDecl.childPlan_eq_error hfail
        · exact .inl hraw
        · exact .inr ⟨plan.decl, hf, q, target, hfound, child, hchild, hid, heq⟩
      · cases h

namespace Site

variable (w : Site)

/-- The fields of the structure can be planned, and no child takes a number. -/
def Numbered (s : StructDecl) : Prop :=
  ∃ plans, planSlots w.options w.library w.place s = .ok plans ∧ takenId? plans = none

/-- What naming the file may end with. -/
inductive Refuses : BuildError → Prop
  | identifier (raw : String) : Refuses (.invalidIdentifier w.file raw)
  | conflict (c : NameConflict) : Refuses (.nameConflict w.file c)
  /-- The fields of a structure of the file cannot be planned. -/
  | unplanned {s : StructDecl} {purpose : Purpose} {e : BuildError} (hs : w.Serves purpose s)
    (h : planSlots w.options w.library w.place s = .error e) : Refuses e
  /-- A child takes a number in a structure of the file. -/
  | repeated {s : StructDecl} {purpose : Purpose} {plans : List (Slot FieldPlan)}
    {taken : FieldPlan} (hs : w.Serves purpose s)
    (hplans : planSlots w.options w.library w.place s = .ok plans)
    (htaken : takenId? plans = some taken) :
    Refuses (.repeatedId w.file s.name taken.decl.name taken.decl.id)

/-! ## Every step numbers its structures or refuses the file -/

/-- The step refuses the file at most. -/
abbrev MayRefuse {α : Type} (x : Install α) : Prop :=
  Answers x (fun _ => True) w.Refuses

theorem refuses_identified {raw : String} {e : BuildError} (h : identified w.file raw = .error e) :
    w.Refuses e :=
  identified_eq_error h ▸ .identifier raw

theorem mayRefuse_identified (raw : String) :
    w.MayRefuse (liftM (identified w.file raw) : Install String) :=
  .lift (fun _ _ => trivial) fun _ => refuses_identified w

theorem mayRefuse_allocateGlobal (source : String) (madeUp : Bool) :
    w.MayRefuse (w.allocateGlobal source madeUp) := by
  rw [allocateGlobal]
  refine .bind (.lift (fun _ _ => trivial) fun e h => ?_) fun candidate _ =>
    .bind .get fun r _ => .bind (.set _) fun _ _ => .pure trivial
  rcases bind_eq_error.mp h with h | ⟨name, -, h⟩
  · exact refuses_identified w h
  · cases h

theorem mayRefuse_reserveGlobal (name key : String) : w.MayRefuse (w.reserveGlobal name key) := by
  rw [reserveGlobal]
  refine .bind .get fun r _ => ?_
  split
  · exact .set _
  · exact .throw (.conflict _)

theorem answers_nameFields {s : StructDecl} {purpose : Purpose} (hs : w.Serves purpose s)
    (name : String) (kind : StructKind) :
    Answers (w.nameFields s name kind purpose) (fun _ => w.Numbered s) w.Refuses := by
  rw [nameFields]
  refine .bind (.lift (fun _ h => h) fun _ => .unplanned hs) fun plans hplans => ?_
  dsimp only
  cases htaken : takenId? plans with
  | some taken =>
      exact .bind (Q := fun _ => False) (.throw (.repeated hs hplans htaken)) fun _ h => h.elim
  | none => exact .bind (.modify _) fun _ _ => .pure ⟨plans, hplans, htaken⟩

theorem answers_listStructure {s : StructDecl} {purpose : Purpose} (hs : w.Serves purpose s)
    (name : String) (kind : StructKind) :
    Answers (w.listStructure s name kind purpose) (fun _ => w.Numbered s) w.Refuses := by
  rw [listStructure]
  exact .bind (.modify _) fun _ _ => .bind (answers_nameFields w hs name kind) fun _ h =>
    .bind (.modify _) fun _ _ => .pure h

/-- A structure of a known kind is numbered. -/
theorem answers_addStructure {s : StructDecl} {purpose : Purpose} (hs : w.Serves purpose s) :
    Answers (w.addStructure s purpose)
      (fun _ => (StructKind.ofSpelling? s.category).isSome → w.Numbered s) w.Refuses := by
  rw [addStructure_eq_bind]
  refine .bind (mayRefuse_allocateGlobal w _ _) fun name _ => ?_
  refine .bind (mayRefuse_reserveGlobal w _ _) fun _ _ => ?_
  refine .bind (mayRefuse_reserveGlobal w _ _) fun _ _ => ?_
  split
  · next hunknown =>
    refine .bind (.modify _) fun _ _ => .pure fun hkind => ?_
    rw [hunknown] at hkind
    cases hkind
  · next kind _ =>
    have hlist : Answers (w.listStructure s name kind purpose)
        (fun _ => (StructKind.ofSpelling? s.category).isSome → w.Numbered s) w.Refuses :=
      (answers_listStructure w hs name kind).weaken fun _ h _ => h
    split
    · exact .bind (.modify _) fun _ _ => hlist
    · exact hlist

theorem mayRefuse_nameParams (f : FunctionDecl) (name args : String) (result : Option String) :
    w.MayRefuse (w.nameParams f name args result) := by
  have hcandidates : ∀ fields, w.MayRefuse (liftM (w.paramCandidates fields) :
      Install (List (String × String))) := by
    refine fun fields => .lift (fun _ _ => trivial) fun e h => ?_
    obtain ⟨f, -, h⟩ := exists_of_mapM_eq_error h
    rcases bind_eq_error.mp h with h | ⟨name, -, h⟩
    · exact refuses_identified w h
    · cases h
  rw [nameParams]
  exact .bind (hcandidates _) fun _ _ => .bind (hcandidates _) fun _ _ => .pure trivial

/-- Both structures that are made up for a function are numbered. -/
def NumbersFunction (service : ServiceDecl) (f : FunctionDecl) : Prop :=
  w.Numbered (argsStruct service f) ∧ (f.oneway = false → w.Numbered (resultStruct service f))

theorem answers_addFunction {service : ServiceDecl} {f : FunctionDecl}
    (hservice : service ∈ w.place.directory.document.services) (hf : f ∈ service.functions)
    (name : String) :
    Answers (w.addFunction service f name) (fun _ => w.NumbersFunction service f) w.Refuses := by
  have hkind : (StructKind.ofSpelling? "struct").isSome := by decide
  have harguments : w.Serves .arguments (argsStruct service f) := ⟨service, hservice, f, hf, rfl⟩
  rw [addFunction_eq_bind]
  refine .bind (answers_addStructure w harguments) fun args hargs => ?_
  have hparams : ∀ result, w.NumbersFunction service f →
      Answers (w.nameParams f name args result) (fun _ => w.NumbersFunction service f)
        w.Refuses :=
    fun result h => (mayRefuse_nameParams w f name args result).weaken fun _ _ => h
  split
  · next honeway =>
    refine .bind (.pure ⟨hargs hkind, fun h => ?_⟩) hparams
    cases honeway.symm.trans h
  · next honeway =>
    have hs : w.Serves .result (resultStruct service f) :=
      ⟨service, hservice, f, hf, Bool.eq_false_iff.mpr honeway, rfl⟩
    refine .bind (.map ((answers_addStructure w hs).weaken fun _ h => ?_)) hparams
    exact ⟨hargs hkind, fun _ => h hkind⟩

theorem answers_addFunctions {service : ServiceDecl}
    (hservice : service ∈ w.place.directory.document.services) (names : NameTable)
    (fs : List FunctionDecl) (hfs : ∀ f ∈ fs, f ∈ service.functions) :
    Answers (w.addFunctions service names fs)
      (fun _ => ∀ f ∈ fs, w.NumbersFunction service f) w.Refuses := by
  induction fs generalizing names with
  | nil => exact .pure fun _ hf => absurd hf List.not_mem_nil
  | cons f fs ih =>
      rw [addFunctions]
      refine .bind (mayRefuse_identified w f.name) fun candidate _ => ?_
      refine .bind (answers_addFunction w hservice (hfs f List.mem_cons_self) _) fun first h => ?_
      refine .bind (ih _ fun g hg => hfs g (List.mem_cons_of_mem _ hg)) fun rest hrest => ?_
      exact .pure (List.forall_mem_cons.mpr ⟨h, hrest⟩)

theorem answers_addService {s : ServiceDecl} (hs : s ∈ w.place.directory.document.services) :
    Answers (w.addService s) (fun _ => ∀ f ∈ s.functions, w.NumbersFunction s f) w.Refuses := by
  rw [addService]
  refine .bind (mayRefuse_allocateGlobal w _ _) fun name _ => ?_
  refine .bind (.modify _) fun _ _ => ?_
  refine .bind (answers_addFunctions w hs _ _ fun _ h => h) fun functions h => ?_
  refine .bind (mayRefuse_reserveGlobal w _ _) fun _ _ => ?_
  refine .bind (mayRefuse_reserveGlobal w _ _) fun _ _ => ?_
  exact (Answers.modify _).weaken fun _ _ => h

theorem mayRefuse_addEnum (e : EnumDecl) : w.MayRefuse (w.addEnum e) := by
  rw [addEnum]
  exact .bind (mayRefuse_allocateGlobal w _ _) fun name _ => .bind (.modify _) fun _ _ => .modify _

theorem mayRefuse_addTypedef (t : TypedefDecl) : w.MayRefuse (w.addTypedef t) := by
  rw [addTypedef]
  refine .bind (mayRefuse_allocateGlobal w _ _) fun name _ => ?_
  have hrest : w.MayRefuse (do
      declare t.name name .typedef
      modify fun r => { r with typedefs := r.typedefs ++ [⟨t, name⟩] }) :=
    .bind (.modify _) fun _ _ => .modify _
  split
  · exact .bind (mayRefuse_reserveGlobal w _ _) fun _ _ => hrest
  · exact hrest

theorem mayRefuse_addConstant (c : ConstantDecl) : w.MayRefuse (w.addConstant c) := by
  rw [addConstant]
  exact .bind (mayRefuse_allocateGlobal w _ _) fun name _ => .bind (.modify _) fun _ _ => .modify _

/-- **Naming a file** numbers every structure in it, unless its kind is unknown, or refuses the
file. -/
theorem answers_install :
    Answers w.install (fun _ => ∀ purpose s, w.Serves purpose s →
      (StructKind.ofSpelling? s.category).isSome → w.Numbered s) w.Refuses := by
  have hdeclared : ∀ s ∈ w.place.directory.document.structLikes, w.Serves .declared s :=
    fun _ hs => hs
  rw [install]
  refine .bind (.forM _ fun s hs => answers_addService w hs) fun _ hservices => ?_
  refine .bind (.forM _ fun s hs => .bind (answers_addStructure w (hdeclared s hs))
    fun _ h => .pure h) fun _ hstructures => ?_
  refine .bind (.forM _ fun e _ => mayRefuse_addEnum w e) fun _ _ => ?_
  refine .bind (.forM _ fun t _ => mayRefuse_addTypedef w t) fun _ _ => ?_
  refine (Answers.forM _ fun c _ => mayRefuse_addConstant w c).weaken fun _ _ => ?_
  intro purpose s hs hkind
  cases purpose with
  | declared => exact hstructures s hs hkind
  | arguments =>
      obtain ⟨service, hservice, f, hf, rfl⟩ := hs
      exact (hservices service hservice f hf).1
  | result =>
      obtain ⟨service, hservice, f, hf, honeway, rfl⟩ := hs
      exact (hservices service hservice f hf).2 honeway

variable {w}

/-- In a file with a roster all structures of known kinds are numbered. -/
theorem numbered_of_roster {r : Roster} (h : w.roster = .ok r) {purpose : Purpose} {s : StructDecl}
    (hs : w.Serves purpose s) (hkind : (StructKind.ofSpelling? s.category).isSome) :
    w.Numbered s := by
  obtain ⟨⟨u, r'⟩, hrun, -⟩ := bind_eq_ok.mp h
  exact (answers_install w).gives .empty u r' hrun purpose s hs hkind

/-- A file without a roster was refused for a reason. -/
theorem refuses_of_roster {e : BuildError} (h : w.roster = .error e) : w.Refuses e := by
  rcases bind_eq_error.mp h with h | ⟨result, -, h⟩
  · exact (answers_install w).fails .empty e h
  · cases h

end Site

end IdlScope

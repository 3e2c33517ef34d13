import IdlScope.Proofs.Inlining

/-!
# Declarations — a roster declares what its document declares

Look-ups ask two views of a file: the declarations that its document spells out, and the table
of names that its roster allocated. The roster is the first view with names:

* **`Document.declares`** — the names that a document declares, with their kinds, in the order
  in which they are named.
* **`Roster.Mirrors`** — the table has exactly these entries in this order, and those of
  structures are the listed structures.
* **`Site.mirrors_roster`** — every finished roster mirrors its document.
-/

namespace IdlScope

/-! ## What a document declares -/

/-- The name of a structure with its kind, unless the kind is unknown. -/
def StructDecl.declares (s : StructDecl) : List (String × DeclKind) :=
  ((StructKind.ofSpelling? s.category).map fun kind => (s.name, .structLike kind)).toList

/-- The names that a document declares with their kinds, in the order of naming. -/
def Document.declares (d : Document) : List (String × DeclKind) :=
  d.services.map (fun s => (s.name, .service)) ++ d.structLikes.flatMap StructDecl.declares ++
    d.enums.map (fun e => (e.name, .enum)) ++ d.typedefs.map (fun t => (t.name, .typedef)) ++
    d.constants.map fun c => (c.name, .constant)

/-! ## Tables of entries -/

namespace Table

variable {α : Type}

theorem ofList_concat (entries : List (String × α)) (name : String) (a : α) :
    ofList (entries ++ [(name, a)]) = (ofList entries).set name a := by
  rw [ofList, List.foldl_append]
  rfl

/-- A table of entries has no others. -/
theorem mem_of_get?_ofList {entries : List (String × α)} {name : String} {a : α}
    (h : (ofList entries).get? name = some a) : (name, a) ∈ entries := by
  induction entries using List.reverseRecOn with
  | nil => cases h
  | append_singleton es e ih =>
      obtain ⟨other, b⟩ := e
      rw [ofList_concat, get?_set] at h
      split at h
      · next heq =>
        rw [heq, Option.some.inj h]
        simp
      · exact List.mem_append_left _ (ih h)

end Table

/-! ## Mirrors -/

/-- The parameters of the function are named after its arguments, in order, and the structure
that it has for them is one of `sts`. -/
structure NamedFunction.Follows (f : NamedFunction) (service : ServiceDecl)
    (sts : List (Structure NamedField)) : Prop where
  sources : f.argumentNames.map NamedParam.source = f.decl.arguments.map FieldDecl.name
  listed : ∃ st ∈ sts, st.madeUp = true ∧ st.name = f.argsStruct ∧
    st.decl = Site.argsStruct service f.decl

theorem NamedFunction.Follows.mono {f : NamedFunction} {service : ServiceDecl}
    {sts sts' : List (Structure NamedField)} (h : f.Follows service sts) (hsub : sts ⊆ sts') :
    f.Follows service sts' := by
  obtain ⟨st, hst, hrest⟩ := h.listed
  exact ⟨h.sources, st, hsub hst, hrest⟩

/-- The table of declarations has the entries `es`, and those of structures are the listed
structures. -/
structure Roster.Enters (r : Roster) (es : List (String × Declared)) : Prop where
  declared : r.declared = .ofList es
  listed : ∀ name d kind, (name, d) ∈ es → d.kind = .structLike kind →
    ∃ st ∈ r.structures.all, st.madeUp = false ∧ st.source = name ∧ st.name = d.name ∧
      st.kind = kind
  entered : ∀ st ∈ r.structures.all, st.madeUp = false →
    (st.source, ⟨st.name, .structLike st.kind⟩) ∈ es

/-- The roster declares the names `ds` in order, lists the structures `sts` among others, and
its functions have their parameters and arguments. -/
structure Roster.Mirrors (ds : List (String × DeclKind)) (sts : List (Structure NamedField))
    (r : Roster) : Prop where
  enters : ∃ es, r.Enters es ∧ es.map (fun e => (e.1, e.2.kind)) = ds
  keeps : sts ⊆ r.structures.all
  follows : ∀ v ∈ r.services, ∀ f ∈ v.namedFunctions, f.Follows v.decl r.structures.all

/-- The part of a roster that declarations show in. -/
def Roster.shown (r : Roster) : Table Declared × StructureLists NamedField × List NamedService :=
  (r.declared, r.structures, r.services)

theorem StructureLists.subset_all_push {α : Type} (l : StructureLists α) (s : Structure α) :
    l.all ⊆ (l.push s).all :=
  fun _ h => mem_all_push.mpr (.inl h)

namespace Roster

variable {ds : List (String × DeclKind)} {sts : List (Structure NamedField)} {r r' : Roster}

theorem mirrors_empty : Mirrors [] [] .empty :=
  ⟨⟨[], ⟨rfl, fun _ _ _ h => absurd h List.not_mem_nil, fun _ h => absurd h List.not_mem_nil⟩,
    rfl⟩, List.nil_subset _, fun _ h => absurd h List.not_mem_nil⟩

theorem Mirrors.of_shown (h : Mirrors ds sts r) (hr : r'.shown = r.shown) :
    Mirrors ds sts r' := by
  obtain ⟨hdeclared, hrest⟩ := Prod.mk.inj hr
  obtain ⟨hstructures, hservices⟩ := Prod.mk.inj hrest
  obtain ⟨es, henters, hes⟩ := h.enters
  refine ⟨⟨es, ⟨hdeclared.trans henters.declared, ?_, ?_⟩, hes⟩, ?_, ?_⟩
  · rw [hstructures]
    exact henters.listed
  · rw [hstructures]
    exact henters.entered
  · rw [hstructures]
    exact h.keeps
  · rw [hstructures, hservices]
    exact h.follows

/-- Declaring a name that is no structure's. -/
theorem Mirrors.declare (h : Mirrors ds sts r) (source name : String) {kind : DeclKind}
    (hkind : ∀ k, kind ≠ .structLike k) :
    Mirrors (ds ++ [(source, kind)]) sts
      { r with declared := r.declared.set source ⟨name, kind⟩ } := by
  obtain ⟨es, henters, rfl⟩ := h.enters
  refine ⟨⟨es ++ [(source, ⟨name, kind⟩)], ⟨?_, ?_, ?_⟩, by simp⟩, h.keeps, h.follows⟩
  · rw [henters.declared, Table.ofList_concat]
  · intro other d k hmem hstruct
    rcases List.mem_append.mp hmem with hmem | hmem
    · exact henters.listed other d k hmem hstruct
    · obtain ⟨rfl, rfl⟩ := Prod.mk.inj (List.mem_singleton.mp hmem)
      exact absurd hstruct (hkind k)
  · exact fun st hst hmade => List.mem_append_left _ (henters.entered st hst hmade)

/-- Listing a structure that is made up. -/
theorem Mirrors.pushMadeUp (h : Mirrors ds sts r) {st : Structure NamedField}
    (hmade : st.madeUp = true) (hr : r'.shown = (r.declared, r.structures.push st, r.services)) :
    Mirrors ds (st :: sts) r' := by
  obtain ⟨hdeclared, hrest⟩ := Prod.mk.inj hr
  obtain ⟨hstructures, hservices⟩ := Prod.mk.inj hrest
  have hsub := r.structures.subset_all_push st
  obtain ⟨es, henters, hes⟩ := h.enters
  refine ⟨⟨es, ⟨hdeclared.trans henters.declared, ?_, ?_⟩, hes⟩, ?_, ?_⟩
  · intro name d kind hmem hkind
    obtain ⟨other, hother, hrest⟩ := henters.listed name d kind hmem hkind
    exact ⟨other, hstructures ▸ hsub hother, hrest⟩
  · intro other hother hplain
    rw [hstructures, StructureLists.mem_all_push] at hother
    rcases hother with hother | rfl
    · exact henters.entered other hother hplain
    · cases hmade.symm.trans hplain
  · rw [hstructures]
    exact List.cons_subset.mpr ⟨StructureLists.mem_all_push.mpr (.inr rfl),
      List.Subset.trans h.keeps hsub⟩
  · rw [hstructures, hservices]
    exact fun v hv f hf => (h.follows v hv f hf).mono hsub

/-- Declaring a structure and listing it. -/
theorem Mirrors.push (h : Mirrors ds sts r) {st : Structure NamedField} (hplain : st.madeUp = false)
    (hr : r'.shown = (r.declared.set st.source ⟨st.name, .structLike st.kind⟩,
      r.structures.push st, r.services)) :
    Mirrors (ds ++ [(st.source, .structLike st.kind)]) sts r' := by
  obtain ⟨hdeclared, hrest⟩ := Prod.mk.inj hr
  obtain ⟨hstructures, hservices⟩ := Prod.mk.inj hrest
  have hsub := r.structures.subset_all_push st
  obtain ⟨es, henters, rfl⟩ := h.enters
  refine ⟨⟨es ++ [(st.source, ⟨st.name, .structLike st.kind⟩)], ⟨?_, ?_, ?_⟩, by simp⟩, ?_, ?_⟩
  · rw [hdeclared, henters.declared, Table.ofList_concat]
  · intro name d kind hmem hkind
    simp only [hstructures, StructureLists.mem_all_push]
    rcases List.mem_append.mp hmem with hmem | hmem
    · obtain ⟨other, hother, hrest⟩ := henters.listed name d kind hmem hkind
      exact ⟨other, .inl hother, hrest⟩
    · obtain ⟨rfl, rfl⟩ := Prod.mk.inj (List.mem_singleton.mp hmem)
      exact ⟨st, .inr rfl, hplain, rfl, rfl, DeclKind.structLike.inj hkind⟩
  · intro other hother hmade
    rw [hstructures, StructureLists.mem_all_push] at hother
    rcases hother with hother | rfl
    · exact List.mem_append_left _ (henters.entered other hother hmade)
    · simp
  · rw [hstructures]
    exact List.Subset.trans h.keeps hsub
  · rw [hstructures, hservices]
    exact fun v hv f hf => (h.follows v hv f hf).mono hsub

/-- Listing a service whose functions have their parameters and arguments. -/
theorem Mirrors.pushService (h : Mirrors ds sts r) {v : NamedService}
    (hv : ∀ f ∈ v.namedFunctions, f.Follows v.decl r.structures.all) :
    Mirrors ds sts { r with services := r.services ++ [v] } := by
  obtain ⟨es, henters, hes⟩ := h.enters
  refine ⟨⟨es, ⟨henters.declared, henters.listed, henters.entered⟩, hes⟩, h.keeps, ?_⟩
  intro u hu
  rcases List.mem_append.mp hu with hu | hu
  · exact h.follows u hu
  · exact List.mem_singleton.mp hu ▸ hv

/-- What is listed may be forgotten. -/
theorem Mirrors.forget {sts' : List (Structure NamedField)} (h : Mirrors ds sts r)
    (hsub : sts' ⊆ sts) : Mirrors ds sts' r :=
  ⟨h.enters, List.Subset.trans hsub h.keeps, h.follows⟩

end Roster

namespace Site

variable (w : Site)

/-! ## Steps that do not show -/

/-- A step that changes nothing that declarations show in, and gives something with `Q`. -/
def Silent {α : Type} (x : Install α) (Q : α → Prop) : Prop :=
  ∀ c, Ensures (fun r => r.shown = c) x fun a r => Q a ∧ r.shown = c

/-- What goes by the shown part of a roster is kept by steps that do not show. -/
theorem Silent.keeps {α : Type} {x : Install α} {Q : α → Prop} (h : Silent x Q)
    {P : Roster → Prop} (hP : ∀ r r', P r → r'.shown = r.shown → P r') :
    Ensures P x fun a r => Q a ∧ P r := by
  intro r a r' hr hrun
  obtain ⟨ha, hshown⟩ := h r.shown r a r' rfl hrun
  exact ⟨ha, hP r r' hr hshown⟩

theorem silent_report (ds : List Diagnostic) : Silent (report ds) fun _ => True :=
  fun _ => .modify fun _ h => ⟨trivial, h⟩

theorem silent_allocateGlobal (source : String) (madeUp : Bool) :
    Silent (w.allocateGlobal source madeUp) fun _ => True := by
  intro c
  rw [allocateGlobal]
  refine .bind (Q := fun _ r => r.shown = c) (.lift fun _ _ _ h => h) fun candidate => ?_
  refine .bind_get fun r hr => ?_
  exact .bind (Q := fun _ r => r.shown = c) (.set fun _ => hr) fun _ =>
    .pure fun _ h => ⟨trivial, h⟩

theorem silent_reserveGlobal (name key : String) :
    Silent (w.reserveGlobal name key) fun _ => True := by
  intro c
  rw [reserveGlobal]
  refine .bind_get fun r hr => ?_
  split
  · exact .set fun _ => ⟨trivial, hr⟩
  · exact .throw

theorem silent_nameFields (s : StructDecl) (name : String) (kind : StructKind)
    (purpose : Purpose) : Silent (w.nameFields s name kind purpose) fun st =>
      st.decl = s ∧ st.name = name ∧ st.kind = kind ∧
        st.madeUp = (purpose != .declared) := by
  intro c
  rw [nameFields]
  refine .bind (Q := fun _ r => r.shown = c) (.lift fun _ _ _ h => h) fun plans => ?_
  dsimp only
  cases takenId? plans with
  | some taken => exact .bind (Q := fun _ _ => False) .throw fun _ _ _ _ h _ => h.elim
  | none =>
      refine .bind (silent_report _ c) fun _ => .pure fun r hr => ?_
      exact ⟨⟨rfl, rfl, rfl, rfl⟩, hr.2⟩

/-! ## Every step mirrors its declaration -/

section Steps

variable {ds : List (String × DeclKind)} {sts : List (Structure NamedField)}

/-- A step that declares the names `es` and keeps what is listed. -/
abbrev Declares {α : Type} (x : Install α) (es : List (String × DeclKind)) : Prop :=
  ∀ ds sts, Ensures (Roster.Mirrors ds sts) x fun _ => Roster.Mirrors (ds ++ es) sts

theorem Silent.mirrors {α : Type} {x : Install α} {Q : α → Prop} (h : Silent x Q) :
    Ensures (Roster.Mirrors ds sts) x fun _ => Roster.Mirrors ds sts :=
  (h.keeps fun _ _ hr hshown => hr.of_shown hshown).weaken fun _ _ h => h.2

/-- Declaring a name that is no structure's. -/
theorem declares_declare (source name : String) {kind : DeclKind}
    (hkind : ∀ k, kind ≠ .structLike k) :
    Declares (declare source name kind) [(source, kind)] :=
  fun _ _ => .modify fun _ h => h.declare source name hkind

theorem declares_addStructure (s : StructDecl) :
    Declares (w.addStructure s .declared) s.declares := by
  intro ds sts
  rw [addStructure]
  refine .bind (silent_allocateGlobal w _ _).mirrors fun name => ?_
  refine .bind (silent_reserveGlobal w _ _).mirrors fun _ => ?_
  refine .bind (silent_reserveGlobal w _ _).mirrors fun _ => ?_
  rw [StructDecl.declares]
  split
  · next hkind =>
    rw [hkind, Option.map_none, Option.toList_none, List.append_nil]
    exact .bind (silent_report _).mirrors fun _ => .pure fun _ h => h
  · next kind hkind =>
    rw [hkind, if_pos rfl, Option.map_some, Option.toList_some]
    -- between the entry and the listing, the roster is one that mirrors, with the entry
    let P : Roster → Prop := fun r => ∃ r₀ : Roster, r₀.Mirrors ds sts ∧
      r.shown = (r₀.declared.set s.name ⟨name, .structLike kind⟩, r₀.structures, r₀.services)
    have hP : ∀ r r', P r → r'.shown = r.shown → P r' := by
      rintro r r' ⟨r₀, h₀, hr⟩ hshown
      exact ⟨r₀, h₀, hshown.trans hr⟩
    refine .bind (Q := fun _ => P) (.modify fun r h => ⟨r, h, rfl⟩) fun _ => ?_
    refine .bind ((silent_report _).keeps hP) fun _ => .given fun _ => ?_
    refine .bind ((silent_nameFields w s name kind .declared).keeps hP) fun st => ?_
    refine .given fun hnamed => .bind (.modify fun r hr => ?_) fun _ => .pure fun _ h => h
    obtain ⟨hdecl, hname, hst, hmade⟩ := hnamed
    obtain ⟨r₀, h₀, hr⟩ := hr
    obtain ⟨hdeclared, hrest⟩ := Prod.mk.inj hr
    obtain ⟨hstructures, hservices⟩ := Prod.mk.inj hrest
    have hsource : st.source = s.name := congrArg StructDecl.name hdecl
    rw [← hsource, ← hst]
    refine h₀.push (hmade.trans rfl) ?_
    rw [Roster.shown, hdeclared, hstructures, hservices, hsource, hname, hst]

/-- A structure of a known kind that is made up is listed. -/
theorem lists_addStructure {s : StructDecl} {kind : StructKind}
    (hkind : StructKind.ofSpelling? s.category = some kind) {purpose : Purpose}
    (hpurpose : purpose ≠ .declared) :
    Ensures (Roster.Mirrors ds sts) (w.addStructure s purpose) fun name r =>
      ∃ st : Structure NamedField, (st.madeUp = true ∧ st.name = name ∧ st.decl = s) ∧
        r.Mirrors ds (st :: sts) := by
  rw [addStructure]
  refine .bind (silent_allocateGlobal w _ _).mirrors fun name => ?_
  refine .bind (silent_reserveGlobal w _ _).mirrors fun _ => ?_
  refine .bind (silent_reserveGlobal w _ _).mirrors fun _ => ?_
  rw [hkind]
  dsimp only
  rw [if_neg hpurpose]
  refine .bind (silent_report _).mirrors fun _ => ?_
  refine .bind ((silent_nameFields w s name kind purpose).keeps
    fun _ _ hr hshown => hr.of_shown hshown) fun st => ?_
  refine .given fun hnamed => ?_
  obtain ⟨hdecl, hname, -, hmade⟩ := hnamed
  have hmade : st.madeUp = true := by rw [hmade]; simp [hpurpose]
  refine .bind (Q := fun _ => Roster.Mirrors ds (st :: sts)) (.modify fun r hr => ?_)
    fun _ => .pure fun r hr => ⟨st, ⟨hmade, hname, hdecl⟩, hr⟩
  exact hr.pushMadeUp hmade rfl

/-- A function is named with its parameters, and the structure of its arguments is listed. -/
theorem ensures_addFunction (service : ServiceDecl) (f : FunctionDecl) (name : String) :
    Ensures (Roster.Mirrors ds sts) (w.addFunction service f name) fun fn r =>
      ∃ st, fn.Follows service [st] ∧ r.Mirrors ds (st :: sts) := by
  rw [addFunction_eq_bind]
  refine .bind (lists_addStructure w (StructKind.ofSpelling?_spelling .struct) (by decide))
    fun args => .of_exists fun st => .given fun hst => ?_
  obtain ⟨hmade, hname, hdecl⟩ := hst
  have hparams : ∀ result, Ensures (Roster.Mirrors ds (st :: sts))
      (w.nameParams f name args result) fun fn r =>
        ∃ st, fn.Follows service [st] ∧ r.Mirrors ds (st :: sts) := by
    refine fun result => (ensures_nameParams w f name args result).weaken fun fn r h => ?_
    obtain ⟨⟨rfl, -, hargs, -, hsources⟩, hr⟩ := h
    exact ⟨st, ⟨hsources, st, List.mem_singleton_self st, hmade, hname.trans hargs.symm, hdecl⟩,
      hr⟩
  split
  · exact .bind (Q := fun _ => Roster.Mirrors ds (st :: sts)) (.pure fun _ h => h) hparams
  · refine .bind (Q := fun _ => Roster.Mirrors ds (st :: sts)) (.map ?_) hparams
    refine (lists_addStructure w (StructKind.ofSpelling?_spelling .struct) (by decide)).weaken ?_
    rintro _ _ ⟨_, _, h⟩
    exact h.forget (List.subset_cons_self _ _)

theorem ensures_addFunctions (service : ServiceDecl) (names : NameTable)
    (fs : List FunctionDecl) :
    Ensures (Roster.Mirrors ds sts) (w.addFunctions service names fs) fun fns r =>
      ∃ sts', (∀ fn ∈ fns, fn.Follows service sts') ∧ r.Mirrors ds (sts' ++ sts) := by
  induction fs generalizing names sts with
  | nil => exact .pure fun _ h => ⟨[], fun _ hfn => absurd hfn List.not_mem_nil, h⟩
  | cons f fs ih =>
      rw [addFunctions]
      refine .bind (Q := fun _ => Roster.Mirrors ds sts) (.lift fun _ _ _ h => h)
        fun candidate => ?_
      refine .bind (ensures_addFunction w service f _) fun first => .of_exists fun st =>
        .given fun hfirst => ?_
      -- the structure of the first function stays listed while the others are named
      refine .bind (ih _) fun rest => .pure fun r hr => ?_
      obtain ⟨sts', hrest, hr⟩ := hr
      refine ⟨sts' ++ [st], List.forall_mem_cons.mpr ⟨hfirst.mono ?_, ?_⟩, ?_⟩
      · exact List.subset_append_right _ _
      · exact fun fn hfn => (hrest fn hfn).mono (List.subset_append_left _ _)
      · rwa [List.append_assoc]

theorem declares_addService (s : ServiceDecl) :
    Declares (w.addService s) [(s.name, .service)] := by
  intro ds sts
  rw [addService]
  refine .bind (silent_allocateGlobal w _ _).mirrors fun name => ?_
  refine .bind (declares_declare _ _ (by simp) ds sts) fun _ => ?_
  refine .bind (ensures_addFunctions w s _ _) fun functions => .of_exists fun sts' =>
    .given fun hfunctions => ?_
  refine .bind (silent_reserveGlobal w _ _).mirrors fun _ => ?_
  refine .bind (silent_reserveGlobal w _ _).mirrors fun _ => .modify fun r hr => ?_
  refine (hr.forget (List.subset_append_right _ _)).pushService fun fn hfn => ?_
  exact (hfunctions fn hfn).mono (List.Subset.trans (List.subset_append_left _ _) hr.keeps)

theorem declares_addEnum (e : EnumDecl) : Declares (w.addEnum e) [(e.name, .enum)] := by
  intro ds sts
  rw [addEnum]
  refine .bind (silent_allocateGlobal w _ _).mirrors fun name => ?_
  exact .bind (declares_declare _ _ (by simp) ds sts) fun _ => .modify fun _ h => h.of_shown rfl

theorem declares_addTypedef (t : TypedefDecl) :
    Declares (w.addTypedef t) [(t.name, .typedef)] := by
  intro ds sts
  rw [addTypedef]
  refine .bind (silent_allocateGlobal w _ _).mirrors fun name => ?_
  have hrest : Ensures (Roster.Mirrors ds sts) (do
      declare t.name name .typedef
      modify fun r => { r with typedefs := r.typedefs ++ [⟨t, name⟩] })
      fun _ => Roster.Mirrors (ds ++ [(t.name, .typedef)]) sts :=
    .bind (declares_declare _ _ (by simp) ds sts) fun _ => .modify fun _ h => h.of_shown rfl
  split
  · exact .bind (silent_reserveGlobal w _ _).mirrors fun _ => hrest
  · exact hrest

theorem declares_addConstant (c : ConstantDecl) :
    Declares (w.addConstant c) [(c.name, .constant)] := by
  intro ds sts
  rw [addConstant]
  refine .bind (silent_allocateGlobal w _ _).mirrors fun name => ?_
  exact .bind (declares_declare _ _ (by simp) ds sts) fun _ => .modify fun _ h => h.of_shown rfl

theorem declares_forM {α : Type} {f : α → Install PUnit} {g : α → List (String × DeclKind)}
    (h : ∀ a, Declares (f a) (g a)) (as : List α) : Declares (as.forM f) (as.flatMap g) := by
  induction as with
  | nil => exact fun ds sts => .pure fun r hr => (List.append_nil ds).symm ▸ hr
  | cons a as ih =>
      intro ds sts
      refine .bind (h a ds sts) fun _ => (ih (ds ++ g a) sts).weaken fun _ r hr => ?_
      rwa [List.flatMap_cons, ← List.append_assoc]

theorem declares_install : Declares w.install w.place.directory.document.declares := by
  intro ds sts
  rw [install]
  refine .bind (declares_forM (declares_addService w) _ ds sts) fun _ => ?_
  refine .bind (declares_forM (fun s => fun ds sts => .bind (declares_addStructure w s ds sts)
    fun _ => .pure fun _ h => h) _ _ _) fun _ => ?_
  refine .bind (declares_forM (declares_addEnum w) _ _ _) fun _ => ?_
  refine .bind (declares_forM (declares_addTypedef w) _ _ _) fun _ => ?_
  refine (declares_forM (declares_addConstant w) _ _ _).weaken fun _ r hr => ?_
  simpa only [Document.declares, List.map_eq_flatMap, List.append_assoc] using hr

end Steps

/-- **A roster declares what its document declares.** -/
theorem mirrors_roster {r : Roster} (h : w.roster = .ok r) :
    r.Mirrors w.place.directory.document.declares [] := by
  obtain ⟨⟨u, r'⟩, hrun, h⟩ := bind_eq_ok.mp h
  rw [← pure_eq_ok.mp h]
  exact declares_install w [] [] .empty u r' Roster.mirrors_empty hrun

end Site

/-! ## Names of finished scopes -/

/-- No two declarations of the document share a name, and all kinds are known. -/
structure Document.Distinct (d : Document) : Prop where
  names : (d.declares.map Prod.fst).Nodup
  known : ∀ s ∈ d.structLikes, (StructKind.ofSpelling? s.category).isSome

instance (d : Document) : Decidable d.Distinct :=
  decidable_of_iff ((d.declares.map Prod.fst).Nodup ∧
    ∀ s ∈ d.structLikes, (StructKind.ofSpelling? s.category).isSome)
    ⟨fun h => ⟨h.1, h.2⟩, fun h => ⟨h.names, h.known⟩⟩

/-- Does the kind declare a structure? -/
def DeclKind.isStructure : DeclKind → Bool
  | .structLike _ => true
  | _ => false

/-- What the document declares by the name, if anything, is a structure. -/
def Document.OnlyStructures (d : Document) (name : String) : Prop :=
  ∀ e ∈ d.declares, e.1 = name → e.2.isStructure = true

instance (d : Document) (name : String) : Decidable (d.OnlyStructures name) :=
  inferInstanceAs (Decidable (∀ e ∈ d.declares, e.1 = name → e.2.isStructure = true))

/-- The document declares neither an enum nor a typedef by the name. -/
def Document.NoOtherType (d : Document) (name : String) : Prop :=
  (∀ e ∈ d.enums, e.name ≠ name) ∧ ∀ t ∈ d.typedefs, t.name ≠ name

instance (d : Document) (name : String) : Decidable (d.NoOtherType name) :=
  inferInstanceAs (Decidable (_ ∧ _))

namespace Document

variable {d : Document} {name : String}

theorem mem_declares_of_struct {s : StructDecl} (hs : s ∈ d.structLikes) {kind : StructKind}
    (hkind : StructKind.ofSpelling? s.category = some kind) :
    (s.name, .structLike kind) ∈ d.declares := by
  have hdeclares : (s.name, DeclKind.structLike kind) ∈ s.declares := by
    rw [StructDecl.declares, hkind]
    exact List.mem_singleton_self _
  simp only [declares, List.mem_append]
  exact .inl (.inl (.inl (.inr (List.mem_flatMap.mpr ⟨s, hs, hdeclares⟩))))

/-- A name that is declared as a structure is the name of one. -/
theorem exists_struct_of_mem_declares {kind : DeclKind} (h : (name, kind) ∈ d.declares)
    (hkind : kind.isStructure = true) : ∃ s ∈ d.structLikes, s.name = name := by
  cases kind with
  | structLike kind => ?_
  | _ => cases hkind
  simp only [declares, List.mem_append, List.mem_map, List.mem_flatMap, StructDecl.declares,
    Option.mem_toList, Option.map_eq_some_iff, Prod.mk.injEq, reduceCtorEq,
    and_false, exists_false, or_false, false_or] at h
  obtain ⟨s, hs, _, _, hname, _⟩ := h
  exact ⟨s, hs, hname⟩

/-- A type that is declared by a name, if it is no enum and no typedef, is a structure. -/
theorem NoOtherType.isStructure (h : d.NoOtherType name) {kind : DeclKind}
    (hmem : (name, kind) ∈ d.declares) (htype : kind.isType = true) : kind.isStructure = true := by
  simp only [declares, List.mem_append, List.mem_map, List.mem_flatMap, StructDecl.declares,
    Option.mem_toList, Option.map_eq_some_iff, Prod.mk.injEq] at hmem
  rcases hmem with (((⟨_, _, _, rfl⟩ | ⟨_, _, _, _, _, rfl⟩) | ⟨e, he, hname, -⟩) |
    ⟨t, ht, hname, -⟩) | ⟨_, _, _, rfl⟩
  · cases htype
  · rfl
  · exact absurd hname (h.1 e he)
  · exact absurd hname (h.2 t ht)
  · cases htype

/-- Structures of a document whose names differ have different names. -/
theorem Distinct.structs (h : d.Distinct) : (d.structLikes.map StructDecl.name).Nodup := by
  have hnames : (d.structLikes.flatMap StructDecl.declares).map Prod.fst =
      d.structLikes.map StructDecl.name := by
    rw [List.map_flatMap, List.map_eq_flatMap]
    refine List.flatMap_congr fun s hs => ?_
    obtain ⟨kind, hkind⟩ := Option.isSome_iff_exists.mp (h.known s hs)
    rw [StructDecl.declares, hkind]
    rfl
  rw [← hnames]
  refine h.names.sublist (List.Sublist.map _ ?_)
  rw [declares]
  simp only [List.append_assoc]
  exact (List.sublist_append_left _ _).trans (List.sublist_append_right _ _)

end Document

namespace Site

variable (w : Site) {r : Roster} (h : w.roster = .ok r) {name : String}
include h

/-- A structure of the document is listed with the kind that it spells, and its name is entered
with the name and the kind of the listed one. -/
theorem entered_of_struct? (hdistinct : w.place.directory.document.Distinct) {st : StructDecl}
    (hst : w.place.directory.struct? name = some st) : ∃ named ∈ r.structures.all,
      named.madeUp = false ∧ named.decl = st ∧
        StructKind.ofSpelling? st.category = some named.kind ∧
        r.declared.get? name = some ⟨named.name, .structLike named.kind⟩ := by
  have hmem : st ∈ w.place.directory.document.structLikes := List.mem_of_find?_eq_some hst
  obtain rfl : st.name = name := by simpa using List.find?_some hst
  obtain ⟨kind, hkind⟩ := Option.isSome_iff_exists.mp (hdistinct.known st hmem)
  obtain ⟨es, henters, hes⟩ := (w.mirrors_roster h).enters
  have hdeclares := Document.mem_declares_of_struct hmem hkind
  rw [← hes] at hdeclares
  obtain ⟨⟨name, entry⟩, hentry, hname⟩ := List.mem_map.mp hdeclares
  obtain ⟨rfl, hentrykind⟩ := Prod.mk.inj hname
  have hnames : (es.map Prod.fst).Nodup := by
    have := hdistinct.names
    rwa [← hes, List.map_map] at this
  -- the entry is a listed structure, and declarations of one name are one declaration
  obtain ⟨named, hnamed, hmade, hsource, hallocated, hlistedkind⟩ :=
    henters.listed _ _ kind hentry hentrykind
  have hdecl : named.decl = st :=
    List.inj_on_of_nodup_map hdistinct.structs
      (((w.sound_roster h).structures named hnamed).declared hmade) hmem hsource
  obtain ⟨allocated, entrykind⟩ := entry
  obtain rfl : named.name = allocated := hallocated
  obtain rfl : named.kind = kind := hlistedkind
  refine ⟨named, hnamed, hmade, hdecl, hkind, ?_⟩
  rw [henters.declared, Table.get?_ofList hnames hentry]
  rw [show entrykind = .structLike named.kind from hentrykind]

/-- What is entered for a name was declared by it. -/
theorem mem_declares_of_get? {entry : Declared} (hentry : r.declared.get? name = some entry) :
    (name, entry.kind) ∈ w.place.directory.document.declares := by
  obtain ⟨es, henters, hes⟩ := (w.mirrors_roster h).enters
  rw [henters.declared] at hentry
  rw [← hes]
  exact List.mem_map_of_mem (f := fun e => (e.1, e.2.kind)) (Table.mem_of_get?_ofList hentry)

/-- If a name is no structure's, no enum's and no typedef's, no type is entered for it. -/
theorem declared?_eq_none (hother : w.place.directory.document.NoOtherType name)
    (hst : w.place.directory.struct? name = none) :
    (r.declared.get? name).filter (DeclKind.isType ·.kind) = none := by
  cases hentry : r.declared.get? name with
  | none => rfl
  | some entry =>
      refine Option.filter_eq_none_iff.mpr fun a ha htype => ?_
      obtain rfl := Option.some.inj ha
      have hmem := w.mem_declares_of_get? h hentry
      obtain ⟨st, hst', hname⟩ :=
        Document.exists_struct_of_mem_declares hmem (hother.isStructure hmem htype)
      exact List.find?_eq_none.mp hst st hst' (by simpa using hname)

end Site

namespace Scope.Comes

variable {s : Scope} {o : Options} {d : Document} {l : Library} {k : Linkage} {r : Roster}
  {resolved : StructureLists ResolvedField} (h : s.Comes o d l k r resolved)
include h

theorem mirrors : r.Mirrors s.document.declares [] := by
  rw [h.document]
  exact Site.mirrors_roster _ h.named

/-- A structure of the document is listed, and its name is entered with the name and the kind
of the listed one. -/
theorem declared_of_struct? (hdistinct : s.document.Distinct) {name : String} {st : StructDecl}
    (hst : s.directory.struct? name = some st) : ∃ named ∈ s.structures.all,
      named.madeUp = false ∧ named.decl = st ∧
        s.declared.get? name = some ⟨named.name, .structLike named.kind⟩ := by
  rw [h.document] at hdistinct
  have hfound : (d.bare k).directory.struct? name = some st := by
    rw [Directory.struct?, show s.directory.document = d from h.document] at hst
    exact hst
  obtain ⟨listed, hlisted, hmade, hdecl, -, hentry⟩ :=
    Site.entered_of_struct? _ h.named hdistinct hfound
  rw [← h.map_structures, StructureLists.all_map] at hlisted
  obtain ⟨named, hnamed, rfl⟩ := List.mem_map.mp hlisted
  exact ⟨named, hnamed, hmade, hdecl, h.declared.symm ▸ hentry⟩

/-- A name that is no structure's and nothing else's has no entry. -/
theorem declared_eq_none {name : String} (honly : s.document.OnlyStructures name)
    (hst : s.directory.struct? name = none) : s.declared.get? name = none := by
  cases hentry : s.declared.get? name with
  | none => rfl
  | some entry =>
      have hmem := Site.mem_declares_of_get? _ h.named (h.declared ▸ hentry)
      rw [show (Site.place ⟨o, l, d.bare k⟩).directory.document = s.document from
        h.document.symm] at hmem
      obtain ⟨st, hmem, hname⟩ :=
        Document.exists_struct_of_mem_declares hmem (honly _ hmem rfl)
      have hnone := List.find?_eq_none.mp hst st hmem
      exact absurd hname (by simpa using hnone)

end Scope.Comes

end IdlScope

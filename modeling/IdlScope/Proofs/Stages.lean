import IdlScope.Proofs.Usage

/-!
# Stages — where every text of a finished file was resolved

Fields are resolved before anything is written. Typedefs, constants and functions come
later, when writing has appended includes already, so each is resolved at a place of its own
time. All these places lie between the source and the finished file:

* **`Linkage.Spans`** — a linkage has grown from another one, by includes of files that the
  includes of the other one lead to.
* **`Ensures.mapM_steps`** — in a loop every item has its own step, at a linkage in between.
* **`RenderEnv.typedef_eq_ok`**, **`constant_eq_ok`**, **`function_eq_ok`** — what a single
  step has resolved and written.
* **`Scope.Built.spans`** — the finished file leads to no file that its source did not lead
  to.
-/

namespace IdlScope

/-! ## Inside what includes lead to -/

namespace Library

variable {l : Library}

/-- The home is the file being built, or a file that the includes lead to. -/
def LeadsHome (l : Library) (is : List Include) : Home → Prop
  | .here => True
  | .foreign file => l.Leads is file

end Library

/-- The place is at a home that the includes lead to, and includes only files that they lead
to. -/
structure Place.Inside (l : Library) (is : List Include) (p : Place) : Prop where
  home : l.LeadsHome is p.home
  includes : ∀ i ∈ p.directory.present, l.Leads is i.file

namespace Place.Inside

variable {l : Library} {is : List Include} {p q : Place}

/-- The place of a file that the includes lead to. -/
theorem of_place? {file : String} (hq : l.place? file = some q) (h : l.Leads is file) :
    q.Inside l is := by
  refine ⟨?_, fun i hi => h.step hq (.direct hi)⟩
  obtain ⟨s, -, rfl⟩ := Option.map_eq_some_iff.mp hq
  exact h

theorem of_reaches (hp : p.Inside l is) (h : l.Reaches p q) : q.Inside l is := by
  rcases h with rfl | ⟨file, hq, h⟩
  · exact hp
  · exact of_place? hq (h.trans hp.includes)

/-- A home that the includes lead to is inside, seen from a place inside. -/
theorem placeOf (hp : p.Inside l is) {home : Home} (h : l.LeadsHome is home) :
    (l.placeOf p home).Inside l is := by
  cases home with
  | here => exact hp
  | foreign file =>
      rw [Library.placeOf]
      cases hq : l.place? file with
      | none => exact hp
      | some q => exact of_place? hq h

end Place.Inside

/-! ## Linkages between source and finished file -/

/-- The linkage has grown from `k₀`, by includes of files that those of `k₀` lead to. -/
structure Linkage.Spans (l : Library) (k₀ k : Linkage) : Prop where
  le : k₀ ≤ k
  leads : ∀ i ∈ k.present, l.Leads k₀.present i.file

namespace Linkage.Spans

variable {l : Library} {g : Language} {k₀ k k' : Linkage}

theorem refl (l : Library) (k : Linkage) : k.Spans l k :=
  ⟨le_refl k, fun _ hi => .direct hi⟩

/-- Asking for the qualifier of a home inside appends an include of this home at most. -/
theorem qualifierOf (h : k₀.Spans l k) {home : Home} (hhome : l.LeadsHome k₀.present home) :
    k₀.Spans l ((RenderEnv.mk g l).qualifierOf k home).2 := by
  refine ⟨h.le.trans (RenderEnv.le_qualifierOf _ k home), ?_⟩
  unfold RenderEnv.qualifierOf
  cases home with
  | here => exact h.leads
  | foreign file =>
      dsimp only
      split
      · exact h.leads
      · next s hs =>
        have hname : s.document.filename = file := Library.filename_of_scope? hs
        intro i hi
        rcases mem_present_qualifierFor g _ _ hi with hi | hi
        · exact h.leads i hi
        · rw [hi, hname]
          exact hhome

/-- Asking for the qualifiers of homes inside leads to a linkage in between. -/
theorem visit (h : k₀.Spans l k) {homes : List Home}
    (hhomes : ∀ home ∈ homes, l.LeadsHome k₀.present home) :
    k₀.Spans l ((RenderEnv.mk g l).visit k homes) := by
  induction homes generalizing k with
  | nil => exact h
  | cons home homes ih =>
      exact ih (h.qualifierOf (hhomes home List.mem_cons_self))
        fun other hother => hhomes other (List.mem_cons_of_mem _ hother)

end Linkage.Spans

/-! ## Steps of finishing, one at a time -/

/-- In a loop whose steps keep `C` and let the state grow, every item had its own step, from a
state in between. -/
theorem mapM_steps {σ ε α β : Type} [Preorder σ] {C : σ → Prop} {f : α → StateT σ (Except ε) β}
    (hf : ∀ a s b t, C s → (f a).run s = .ok (b, t) → C t ∧ s ≤ t) {as : List α} {bs : List β}
    {s t : σ} (hs : C s) (h : (as.mapM f).run s = .ok (bs, t)) :
    C t ∧ s ≤ t ∧
      List.Forall₂ (fun a b => ∃ r u, C r ∧ (f a).run r = .ok (b, u) ∧ u ≤ t) as bs := by
  induction as generalizing bs s with
  | nil =>
      obtain ⟨rfl, rfl⟩ := run_pure_eq_ok.mp h
      exact ⟨hs, le_refl s, .nil⟩
  | cons a as ih =>
      rw [List.mapM_cons] at h
      obtain ⟨b, r, hb, h⟩ := run_bind_eq_ok.mp h
      obtain ⟨bs, u, hbs, h⟩ := run_bind_eq_ok.mp h
      obtain ⟨rfl, rfl⟩ := run_pure_eq_ok.mp h
      obtain ⟨hr, hle⟩ := hf a s b r hs hb
      obtain ⟨ht, hle', hall⟩ := ih hr hbs
      exact ⟨ht, hle.trans hle', .cons ⟨s, r, hs, hb, hle'⟩ hall⟩

namespace RenderEnv

variable {e : RenderEnv} {own : Place} {k k' : Linkage}

/-- What is written is what it says under the aliases of every later linkage. -/
theorem rendering_eq_ok {α : Type} {x : Link α} {homes : List Home}
    {out : (Home → Option String) → α} (hx : Writes e x homes out) {a : α}
    (h : (rendering x).run k = .ok (a, k')) :
    k' = e.visit k homes ∧ ∀ later, k' ≤ later → a = out (e.answer later) := by
  obtain ⟨ha, hk⟩ := Prod.mk.inj (Except.ok.inj h)
  have hvisit : k' = e.visit k homes := hk.symm.trans (hx.linkage k)
  refine ⟨hvisit, fun later hle => ?_⟩
  rw [hvisit] at hle
  exact ha.symm.trans (hx.result k _ (answer_of_visit_le e hle))

/-- A typedef is resolved with the includes of its time. -/
theorem typedef_eq_ok {t : NamedTypedef} {t' : Typedef}
    (h : (e.typedef own t).run k = .ok (t', k')) :
    ∃ target, e.library.resolveType (placeNow own k) t.decl.target t.decl.name = .ok target ∧
      k' = e.visit k target.homes ∧ ∀ later, k' ≤ later →
        t' = { t with
          type := ⟨e.language.aliasType (target.written e.language (e.answer later)).text,
            (target.written e.language (e.answer later)).qualifiers⟩ } := by
  rw [typedef] at h
  obtain ⟨_, _, hget, h⟩ := run_bind_eq_ok.mp h
  cases hget
  obtain ⟨target, r, hlift, h⟩ := run_bind_eq_ok.mp h
  obtain ⟨htarget, rfl⟩ := run_lift_eq_ok.mp hlift
  obtain ⟨plain, r', hplain, h⟩ := run_bind_eq_ok.mp h
  obtain ⟨rfl, rfl⟩ := run_pure_eq_ok.mp h
  obtain ⟨hvisit, htext⟩ := rendering_eq_ok (writes_type e target) hplain
  exact ⟨target, htarget, hvisit, fun later hle => by rw [htext later hle]⟩

/-- A constant is resolved with the includes of its time. -/
theorem constant_eq_ok {c : NamedConstant} {c' : Constant}
    (h : (e.constant own c).run k = .ok (c', k')) :
    ∃ type value, e.library.resolveType (placeNow own k) c.decl.type c.decl.name = .ok type ∧
      e.library.resolveValue (placeNow own k) c.decl.name c.decl.value = .ok value ∧
      k' = e.visit k (type.homes ++ value.homes type) ∧ ∀ later, k' ≤ later →
        c' = { c with
          type := type.written e.language (e.answer later)
          init := value.written e.language (e.answer later) type
            (type.written e.language (e.answer later)).text } := by
  rw [constant] at h
  obtain ⟨_, _, hget, h⟩ := run_bind_eq_ok.mp h
  cases hget
  obtain ⟨t, r, hlift, h⟩ := run_bind_eq_ok.mp h
  obtain ⟨ht, rfl⟩ := run_lift_eq_ok.mp hlift
  obtain ⟨v, r, hlift, h⟩ := run_bind_eq_ok.mp h
  obtain ⟨hv, rfl⟩ := run_lift_eq_ok.mp hlift
  obtain ⟨type, k₁, htype, h⟩ := run_bind_eq_ok.mp h
  obtain ⟨init, k₂, hinit, h⟩ := run_bind_eq_ok.mp h
  obtain ⟨rfl, rfl⟩ := run_pure_eq_ok.mp h
  obtain ⟨rfl, htype⟩ := rendering_eq_ok (writes_type e t) htype
  obtain ⟨rfl, hinit⟩ := rendering_eq_ok (writes_value e t type.text v) hinit
  refine ⟨t, v, ht, hv, (e.visit_append k _ _).symm, fun later hle => ?_⟩
  rw [hinit later hle, htype later ((e.le_visit _ _).trans hle)]

/-- The base of a service adds its own home at most. -/
theorem serviceBase_eq_ok {s : NamedService} {base : Option ServiceBase}
    (h : (e.serviceBase own s).run k = .ok (base, k')) :
    ∃ homes, k' = e.visit k homes ∧ ∀ home ∈ homes, ∃ name reference q found,
      e.library.declaration? (placeNow own k) name reference (· == .service) = some (q, found) ∧
        home = q.home := by
  rw [serviceBase] at h
  cases hbase : s.decl.base with
  | none =>
      rw [hbase] at h
      obtain ⟨rfl, rfl⟩ := run_pure_eq_ok.mp h
      exact ⟨[], rfl, fun _ hhome => absurd hhome List.not_mem_nil⟩
  | some name =>
      rw [hbase] at h
      obtain ⟨_, _, hget, h⟩ := run_bind_eq_ok.mp h
      cases hget
      dsimp only at h
      split at h
      · cases h
      · next q found hfound =>
        obtain ⟨_, _, hget, h⟩ := run_bind_eq_ok.mp h
        cases hget
        obtain ⟨_, _, hset, h⟩ := run_bind_eq_ok.mp h
        cases hset
        obtain ⟨rfl, rfl⟩ := run_pure_eq_ok.mp h
        refine ⟨[q.home], rfl, fun home hhome => ?_⟩
        exact ⟨name, s.decl.baseReference, q, found, hfound, List.mem_singleton.mp hhome⟩

/-- Parameters with their types written. -/
def writtenParams (e : RenderEnv) (q : Home → Option String) (names : List NamedParam)
    (types : List TypeExpr) : List Param :=
  (names.zip types).map fun p => { p.1 with type := p.2.written e.language q }

/-- The homes in a signature, in the order in which it is written. -/
def signatureHomes (f : NamedFunction) (arguments : List TypeExpr) (response : Option TypeExpr)
    (throws : List TypeExpr) : List Home :=
  (f.argumentNames.zip arguments).flatMap (fun p => p.2.homes) ++
    (response.toList.flatMap TypeExpr.homes ++
      (f.throwNames.zip throws).flatMap fun p => p.2.homes)

theorem exists_of_mem_signatureHomes {f : NamedFunction} {arguments : List TypeExpr}
    {response : Option TypeExpr} {throws : List TypeExpr} {home : Home}
    (h : home ∈ signatureHomes f arguments response throws) :
    (∃ t ∈ arguments, home ∈ t.homes) ∨ (∃ t ∈ response, home ∈ t.homes) ∨
      ∃ t ∈ throws, home ∈ t.homes := by
  have hzip : ∀ {names : List NamedParam} {types : List TypeExpr},
      home ∈ (names.zip types).flatMap (fun p => p.2.homes) → ∃ t ∈ types, home ∈ t.homes := by
    intro names types h
    obtain ⟨p, hp, h⟩ := List.mem_flatMap.mp h
    exact ⟨p.2, (List.of_mem_zip hp).2, h⟩
  rcases List.mem_append.mp h with h | h
  · exact .inl (hzip h)
  · rcases List.mem_append.mp h with h | h
    · obtain ⟨t, ht, h⟩ := List.mem_flatMap.mp h
      exact .inr (.inl ⟨t, Option.mem_toList.mp ht, h⟩)
    · exact .inr (.inr (hzip h))

/-- A signature is resolved with the includes of its time. -/
theorem function_eq_ok {structures : StructureLists Field} {serviceName : String}
    {f : NamedFunction} {fn : Function}
    (h : (e.function own structures serviceName f).run k = .ok (fn, k')) :
    ∃ arguments response throws,
      e.parameterTypes (placeNow own k) (serviceName ++ "." ++ f.decl.name) f.decl.arguments =
        .ok arguments ∧
      e.responseType (placeNow own k) structures (serviceName ++ "." ++ f.decl.name) f =
        .ok response ∧
      e.parameterTypes (placeNow own k) (serviceName ++ "." ++ f.decl.name) f.decl.throws =
        .ok throws ∧
      k' = e.visit k (signatureHomes f arguments response throws) ∧ ∀ later, k' ≤ later →
        fn = { f with
          arguments := e.writtenParams (e.answer later) f.argumentNames arguments
          response := response.map (TypeExpr.written e.language (e.answer later))
          throws := e.writtenParams (e.answer later) f.throwNames throws } := by
  rw [function] at h
  obtain ⟨_, _, hget, h⟩ := run_bind_eq_ok.mp h
  cases hget
  dsimp only at h
  obtain ⟨arguments, r, hlift, h⟩ := run_bind_eq_ok.mp h
  obtain ⟨harguments, rfl⟩ := run_lift_eq_ok.mp hlift
  obtain ⟨response, r, hlift, h⟩ := run_bind_eq_ok.mp h
  obtain ⟨hresponse, rfl⟩ := run_lift_eq_ok.mp hlift
  obtain ⟨throws, r, hlift, h⟩ := run_bind_eq_ok.mp h
  obtain ⟨hthrows, rfl⟩ := run_lift_eq_ok.mp hlift
  obtain ⟨params, k₁, hparams, h⟩ := run_bind_eq_ok.mp h
  obtain ⟨hk₁, hparams⟩ := rendering_eq_ok (writes_params e f.argumentNames arguments) hparams
  -- with a response or without, it is written before the exceptions
  have hmiddle : ∃ result k₂, k₂ = e.visit k₁ (response.toList.flatMap TypeExpr.homes) ∧
      (∀ later, k₂ ≤ later →
        result = response.map (TypeExpr.written e.language (e.answer later))) ∧
      (do
        let throws ← rendering (e.params f.throwNames throws)
        return ({ f with arguments := params, response := result, throws } : Function)).run k₂ =
          .ok (fn, k') := by
    cases response with
    | none => exact ⟨none, k₁, rfl, fun _ _ => rfl, h⟩
    | some t =>
        obtain ⟨result, k₂, hresult, h⟩ := run_bind_eq_ok.mp h
        obtain ⟨text, _, htext, rfl, rfl⟩ := run_map_eq_ok.mp hresult
        obtain ⟨hvisit, htext⟩ := rendering_eq_ok (writes_type e t) htext
        exact ⟨some text, _, by simpa using hvisit,
          fun later hle => congrArg some (htext later hle), h⟩
  obtain ⟨result, k₂, hk₂, hresult, h⟩ := hmiddle
  obtain ⟨thrown, k₃, hthrown, h⟩ := run_bind_eq_ok.mp h
  obtain ⟨rfl, rfl⟩ := run_pure_eq_ok.mp h
  obtain ⟨hk₃, hthrown⟩ := rendering_eq_ok (writes_params e f.throwNames throws) hthrown
  refine ⟨arguments, response, throws, harguments, hresponse, hthrows, ?_, ?_⟩
  · rw [signatureHomes, visit_append, visit_append, ← hk₁, ← hk₂, ← hk₃]
  · intro later hle
    have hle₂ : k₂ ≤ later := (hk₃ ▸ e.le_visit k₂ _).trans hle
    have hle₁ : k₁ ≤ later := (hk₂ ▸ e.le_visit k₁ _).trans hle₂
    rw [hparams later hle₁, hresult later hle₂, hthrown later hle]
    rfl

/-- A service has the base that was found for it, and its functions are resolved in order. -/
theorem service_eq_ok {structures : StructureLists Field} {s : NamedService × Option ServiceBase}
    {v : Service} (h : (e.service own structures s).run k = .ok (v, k')) :
    v.toNamedService = s.1 ∧
      (s.1.namedFunctions.mapM (e.function own structures s.1.decl.name)).run k =
        .ok (v.functions, k') := by
  rw [service] at h
  obtain ⟨functions, r, hfunctions, h⟩ := run_bind_eq_ok.mp h
  obtain ⟨rfl, rfl⟩ := run_pure_eq_ok.mp h
  exact ⟨rfl, hfunctions⟩

end RenderEnv

/-! ## Every step stays in between -/

section Spanning

variable {l : Library} {g : Language} {own : Place} {k₀ k k' : Linkage}

theorem Place.inside_placeNow (hown : own.home = .here) (h : k₀.Spans l k) :
    (RenderEnv.placeNow own k).Inside l k₀.present := by
  refine ⟨?_, h.leads⟩
  rw [RenderEnv.placeNow, hown]
  trivial

namespace RenderEnv

variable (hown : own.home = .here) (h : k₀.Spans l k)
include hown h

theorem spans_typedef {t : NamedTypedef} {t' : Typedef}
    (hrun : (typedef ⟨g, l⟩ own t).run k = .ok (t', k')) : k₀.Spans l k' ∧ k ≤ k' := by
  obtain ⟨target, htarget, rfl, -⟩ := typedef_eq_ok hrun
  have hhomes := spreads_resolveType (P := l.LeadsHome k₀.present) Place.Inside.of_reaches
    Place.Inside.home (Place.inside_placeNow hown h) htarget
  exact ⟨h.visit hhomes, le_visit _ k _⟩

theorem spans_constant {c : NamedConstant} {c' : Constant}
    (hrun : (constant ⟨g, l⟩ own c).run k = .ok (c', k')) : k₀.Spans l k' ∧ k ≤ k' := by
  obtain ⟨type, value, htype, hvalue, rfl, -⟩ := constant_eq_ok hrun
  have hinside := Place.inside_placeNow hown h
  have htypes := spreads_resolveType (P := l.LeadsHome k₀.present) Place.Inside.of_reaches
    Place.Inside.home hinside htype
  have hvalues := spreads_resolveValue Place.Inside.of_reaches Place.Inside.home hinside hvalue
    htypes
  exact ⟨h.visit fun home hhome => (List.mem_append.mp hhome).elim (htypes home) (hvalues home),
    le_visit _ k _⟩

theorem spans_serviceBase {s : NamedService} {base : Option ServiceBase}
    (hrun : (serviceBase ⟨g, l⟩ own s).run k = .ok (base, k')) : k₀.Spans l k' ∧ k ≤ k' := by
  obtain ⟨homes, rfl, hhomes⟩ := serviceBase_eq_ok hrun
  refine ⟨h.visit fun home hhome => ?_, le_visit _ k _⟩
  obtain ⟨name, reference, q, found, hfound, rfl⟩ := hhomes home hhome
  exact ((Place.inside_placeNow hown h).of_reaches (Library.reaches_of_declaration? hfound).1).home

theorem spans_function {structures : StructureLists Field} {serviceName : String}
    {f : NamedFunction} {fn : Function}
    (hrun : (function ⟨g, l⟩ own structures serviceName f).run k = .ok (fn, k')) :
    k₀.Spans l k' ∧ k ≤ k' := by
  obtain ⟨arguments, response, throws, ha, hr, ht, rfl, -⟩ := function_eq_ok hrun
  have hinside := Place.inside_placeNow hown h
  refine ⟨h.visit fun home hhome => ?_, le_visit _ k _⟩
  rcases exists_of_mem_signatureHomes hhome with
    ⟨t, hmem, hhome⟩ | ⟨t, hmem, hhome⟩ | ⟨t, hmem, hhome⟩
  · exact spreads_parameterTypes Place.Inside.of_reaches Place.Inside.home hinside ha t hmem home
      hhome
  · exact spreads_responseType Place.Inside.of_reaches Place.Inside.home hinside hr t hmem home
      hhome
  · exact spreads_parameterTypes Place.Inside.of_reaches Place.Inside.home hinside ht t hmem home
      hhome

theorem spans_service {structures : StructureLists Field} {s : NamedService × Option ServiceBase}
    {v : Service} (hrun : (service ⟨g, l⟩ own structures s).run k = .ok (v, k')) :
    k₀.Spans l k' ∧ k ≤ k' := by
  obtain ⟨hspans, hle, -⟩ := mapM_steps
    (fun _ _ _ _ hspans hstep => spans_function hown hspans hstep) h (service_eq_ok hrun).2
  exact ⟨hspans, hle⟩

end RenderEnv

end Spanning

/-! ## Finished files -/

/-- The steps of finishing, each from a linkage between source and finished file. -/
structure Roster.Steps (r : Roster) (e : RenderEnv) (own : Place) (k : Linkage)
    (done : Finished) (found : List (Option ServiceBase)) (k' : Linkage) : Prop where
  spans : k.Spans e.library k'
  typedefs : List.Forall₂ (fun a b => ∃ k₁ k₂, k.Spans e.library k₁ ∧
    (e.typedef own a).run k₁ = .ok (b, k₂) ∧ k₂ ≤ k') r.typedefs done.typedefs
  constants : List.Forall₂ (fun a b => ∃ k₁ k₂, k.Spans e.library k₁ ∧
    (e.constant own a).run k₁ = .ok (b, k₂) ∧ k₂ ≤ k') r.constants done.constants
  services : List.Forall₂ (fun a b => ∃ k₁ k₂, k.Spans e.library k₁ ∧
    (e.service own done.structures a).run k₁ = .ok (b, k₂) ∧ k₂ ≤ k')
    (r.services.zip found) done.services

/-- If the fields of a file mention nothing outside of what its includes lead to, every step
of finishing stays inside. -/
theorem Roster.Finishes.steps {r : Roster} {l : Library} {g : Language} {own : Place}
    {resolved : StructureLists ResolvedField} {k k' : Linkage} {done : Finished}
    {found : List (Option ServiceBase)} {k₁ k₂ k₃ k₄ : Linkage}
    (h : r.Finishes ⟨g, l⟩ own resolved k done k' found k₁ k₂ k₃ k₄) (hown : own.home = .here)
    (hresolved : ∀ st ∈ resolved.all, ∀ f ∈ st.allFields, ∀ home ∈ f.homes,
      l.LeadsHome k.present home) : r.Steps ⟨g, l⟩ own k done found k' := by
  obtain ⟨hvisit, -⟩ := RenderEnv.rendering_eq_ok
    (RenderEnv.Writes.ofStructures (RenderEnv.writes_field ⟨g, l⟩) resolved) h.structures
  have hspans₁ : k.Spans l k₁ := by
    rw [hvisit]
    refine (Linkage.Spans.refl l k).visit fun home hhome => ?_
    obtain ⟨st, hst, hhome⟩ := List.mem_flatMap.mp hhome
    obtain ⟨f, hf, hhome⟩ := List.mem_flatMap.mp hhome
    exact hresolved st hst f hf home hhome
  obtain ⟨hspans₂, -, htypedefs⟩ := mapM_steps
    (fun _ _ _ _ hspans hrun => RenderEnv.spans_typedef hown hspans hrun) hspans₁ h.typedefs
  obtain ⟨hspans₃, hle₃, hconstants⟩ := mapM_steps
    (fun _ _ _ _ hspans hrun => RenderEnv.spans_constant hown hspans hrun) hspans₂ h.constants
  -- pruning only takes marks away
  have hspans : k.Spans l
      (k₃.prune (mentionedAliases done.structures done.typedefs done.constants)) :=
    ⟨hspans₃.le.trans (Linkage.le_prune _ _), hspans₃.leads⟩
  obtain ⟨hspans₄, hle₄, -⟩ := mapM_steps
    (fun _ _ _ _ hspans hrun => RenderEnv.spans_serviceBase hown hspans hrun) hspans h.bases
  obtain ⟨hspans', hle', hservices⟩ := mapM_steps
    (fun _ _ _ _ hspans hrun => RenderEnv.spans_service hown hspans hrun) hspans₄ h.services
  have hbehind : k₃ ≤ k' := (Linkage.le_prune _ _).trans (hle₄.trans hle')
  refine ⟨hspans', htypedefs.imp ?_, hconstants.imp ?_, hservices⟩
  · rintro a b ⟨r, u, hr, hrun, hu⟩
    exact ⟨r, u, hr, hrun, hu.trans (hle₃.trans hbehind)⟩
  · rintro a b ⟨r, u, hr, hrun, hu⟩
    exact ⟨r, u, hr, hrun, hu.trans hbehind⟩

/-- The file of a scope with its names and with the given includes. -/
def Scope.within (s : Scope) (is : List (Option Include)) : Place :=
  ⟨.here, { s.directory with includes := is }⟩

namespace Scope.Comes

variable {s : Scope} {o : Options} {d : Document} {l : Library} {k : Linkage} {r : Roster}
  {resolved : StructureLists ResolvedField} (h : s.Comes o d l k r resolved)
include h

theorem within_eq (is : List (Option Include)) :
    s.within is = ⟨.here, r.directory d is⟩ := by
  rw [Scope.within, Scope.directory, h.document, h.declared, h.enums]
  rfl

/-- Fields mention nothing outside of what the includes of the file lead to. -/
theorem leads {st : Structure ResolvedField} (hst : st ∈ resolved.all) {f : ResolvedField}
    (hf : f ∈ st.allFields) : ∀ home ∈ f.homes, l.LeadsHome k.present home := by
  obtain ⟨-, hall⟩ := StructureLists.mapM_eq_ok (fun _ _ _ h => (resolveField_eq_ok h).1) h.fields
  have hown : (r.place d k).Inside l k.present := ⟨trivial, fun _ hi => .direct hi⟩
  refine spreads_resolveField Place.Inside.of_reaches Place.Inside.home ?_ (hall st hst f hf)
  rw [Library.declaringPlace]
  split
  · next origin horigin =>
    obtain ⟨named, hnamed, hmem⟩ := h.mem_roster hst hf
    refine hown.placeOf ((Site.sound_roster _ h.named).spreads_origin Place.Inside.of_reaches
      Place.Inside.home ?_ hnamed hmem horigin)
    exact ⟨trivial, fun _ hi => .direct hi⟩
  · exact hown

end Scope.Comes

namespace Scope.Built

variable {s : Scope} {o : Options} {t : Tree} {l : Library} {k : Linkage} (h : s.Built o t l k)
include h

/-- Every scope that was built has gone through the steps of finishing. -/
theorem steps : ∃ r resolved done found, s.Comes o t.document l k r resolved ∧
    r.Steps ⟨o.language, l⟩ (r.place t.document k) k done found s.linkage ∧
    s.typedefs = done.typedefs ∧ s.constants = done.constants ∧ s.services = done.services := by
  obtain ⟨r, resolved, done, hpasses⟩ := Document.scope_eq_ok h.scope
  obtain ⟨found, k₁, k₂, k₃, k₄, hstages⟩ := Roster.finish_eq_ok hpasses.finished
  have hcomes := h.comes_of_passes hpasses
  have hresult := hpasses.result
  refine ⟨r, resolved, done, found, hcomes,
    hstages.steps rfl fun st hst f hf => hcomes.leads hst hf, ?_⟩
  rw [hresult]
  exact ⟨rfl, rfl, rfl⟩

/-- A finished file lists what its roster lists. -/
theorem rostered : ∃ r resolved, s.Comes o t.document l k r resolved ∧ s.globals = r.globals ∧
    (∀ d ∈ s.typedefs, d.toNamedTypedef ∈ r.typedefs) ∧
    (∀ c ∈ s.constants, c.toNamedConstant ∈ r.constants) ∧
    ∀ v ∈ s.services, v.toNamedService ∈ r.services := by
  obtain ⟨r, resolved, done, found, hcomes, hsteps, htypedefs, hconstants, hservices⟩ := h.steps
  refine ⟨r, resolved, hcomes, ?_, ?_, ?_, ?_⟩
  · obtain ⟨r', resolved', done', hpasses⟩ := Document.scope_eq_ok h.scope
    have hroster : r = r' := Except.ok.inj (hcomes.named.symm.trans hpasses.named)
    rw [hpasses.result, hroster]
  · intro d hd
    obtain ⟨named, hnamed, k₁, k₂, -, hrun, -⟩ :=
      exists_of_mem_forall₂ hsteps.typedefs (htypedefs ▸ hd)
    obtain ⟨target, -, -, htext⟩ := RenderEnv.typedef_eq_ok hrun
    rw [htext k₂ le_rfl]
    exact hnamed
  · intro c hc
    obtain ⟨named, hnamed, k₁, k₂, -, hrun, -⟩ :=
      exists_of_mem_forall₂ hsteps.constants (hconstants ▸ hc)
    obtain ⟨type, value, -, -, -, htext⟩ := RenderEnv.constant_eq_ok hrun
    rw [htext k₂ le_rfl]
    exact hnamed
  · intro v hv
    obtain ⟨named, hnamed, k₁, k₂, -, hrun, -⟩ :=
      exists_of_mem_forall₂ hsteps.services (hservices ▸ hv)
    obtain ⟨hservice, -⟩ := RenderEnv.service_eq_ok hrun
    rw [hservice]
    exact (List.of_mem_zip hnamed).1

/-- A finished file leads to no file that its source did not lead to. -/
theorem spans : k.Spans l s.linkage := by
  obtain ⟨r, resolved, done, found, -, hsteps, -⟩ := h.steps
  exact hsteps.spans

/-- Every typedef was resolved between source and finished file, and is written with the
finished aliases. -/
theorem typedef_resolved {d : Typedef} (hd : d ∈ s.typedefs) :
    ∃ k₁ target, k.Spans l k₁ ∧
      RenderEnv.visit ⟨o.language, l⟩ k₁ target.homes ≤ s.linkage ∧
      l.resolveType (s.within k₁.includes) d.decl.target d.decl.name = .ok target ∧
      d.type.text = o.language.aliasType
        (target.spell o.language (RenderEnv.answer ⟨o.language, l⟩ s.linkage)) := by
  obtain ⟨r, resolved, done, found, hcomes, hsteps, htypedefs, -⟩ := h.steps
  obtain ⟨named, -, k₁, k₂, hspans, hrun, hle⟩ :=
    exists_of_mem_forall₂ hsteps.typedefs (htypedefs ▸ hd)
  obtain ⟨target, htarget, rfl, htext⟩ := RenderEnv.typedef_eq_ok hrun
  obtain rfl := htext _ hle
  exact ⟨k₁, target, hspans, hle, hcomes.within_eq k₁.includes ▸ htarget, rfl⟩

/-- Every constant was resolved between source and finished file, and is written with the
finished aliases. -/
theorem constant_resolved {c : Constant} (hc : c ∈ s.constants) :
    ∃ k₁ type value, k.Spans l k₁ ∧
      RenderEnv.visit ⟨o.language, l⟩ k₁ (type.homes ++ value.homes type) ≤ s.linkage ∧
      l.resolveType (s.within k₁.includes) c.decl.type c.decl.name = .ok type ∧
      l.resolveValue (s.within k₁.includes) c.decl.name c.decl.value = .ok value ∧
      c.type = type.written o.language (RenderEnv.answer ⟨o.language, l⟩ s.linkage) ∧
      c.init = value.written o.language (RenderEnv.answer ⟨o.language, l⟩ s.linkage) type
        c.type.text := by
  obtain ⟨r, resolved, done, found, hcomes, hsteps, -, hconstants, -⟩ := h.steps
  obtain ⟨named, -, k₁, k₂, hspans, hrun, hle⟩ :=
    exists_of_mem_forall₂ hsteps.constants (hconstants ▸ hc)
  obtain ⟨type, value, htype, hvalue, rfl, htext⟩ := RenderEnv.constant_eq_ok hrun
  obtain rfl := htext _ hle
  have hwithin := hcomes.within_eq k₁.includes
  exact ⟨k₁, type, value, hspans, hle, hwithin ▸ htype, hwithin ▸ hvalue, rfl, rfl⟩

/-- Every function is one of the roster, finished between source and finished file. -/
theorem function_step {v : Service} (hv : v ∈ s.services) {f : Function} (hf : f ∈ v.functions) :
    ∃ r resolved structures k₁ k₂, s.Comes o t.document l k r resolved ∧
      v.toNamedService ∈ r.services ∧ k.Spans l k₁ ∧ k₂ ≤ s.linkage ∧
      ∃ named ∈ v.namedFunctions, (RenderEnv.function ⟨o.language, l⟩ (r.place t.document k)
        structures v.decl.name named).run k₁ = .ok (f, k₂) := by
  obtain ⟨r, resolved, done, found, hcomes, hsteps, -, -, hservices⟩ := h.steps
  obtain ⟨named, hnamed, k₁, k₂, hspans, hrun, hle⟩ :=
    exists_of_mem_forall₂ hsteps.services (hservices ▸ hv)
  obtain ⟨hservice, hfunctions⟩ := RenderEnv.service_eq_ok hrun
  obtain ⟨-, -, hall⟩ := mapM_steps
    (fun _ _ _ _ hspans hstep => RenderEnv.spans_function rfl hspans hstep) hspans hfunctions
  obtain ⟨g, hg, k₃, k₄, hspans₃, hrun, hle₄⟩ := exists_of_mem_forall₂ hall hf
  rw [← hservice] at hg hrun
  exact ⟨r, resolved, done.structures, k₃, k₄, hcomes, hservice ▸ (List.of_mem_zip hnamed).1,
    hspans₃, hle₄.trans hle, g, hg, hrun⟩

/-- A finished function has the names of one of the functions of its service. -/
theorem function_named {v : Service} (hv : v ∈ s.services) {f : Function} (hf : f ∈ v.functions) :
    f.toNamedFunction ∈ v.namedFunctions := by
  obtain ⟨r, resolved, structures, k₁, k₂, -, -, -, -, named, hnamed, hrun⟩ :=
    h.function_step hv hf
  obtain ⟨arguments, response, throws, -, -, -, -, htext⟩ := RenderEnv.function_eq_ok hrun
  rw [htext k₂ le_rfl]
  exact hnamed

/-- The arguments of every function were resolved between source and finished file, and are
written with the finished aliases. -/
theorem function_resolved {v : Service} (hv : v ∈ s.services) {f : Function}
    (hf : f ∈ v.functions) : ∃ k₁ types response throws, k.Spans l k₁ ∧
      RenderEnv.visit ⟨o.language, l⟩ k₁
        (RenderEnv.signatureHomes f.toNamedFunction types response throws) ≤ s.linkage ∧
      List.Forall₂ (fun a type => l.resolveInSignature (s.within k₁.includes) a.type
        (v.decl.name ++ "." ++ f.decl.name ++ "." ++ a.name) = .ok type) f.decl.arguments types ∧
      f.arguments = RenderEnv.writtenParams ⟨o.language, l⟩
        (RenderEnv.answer ⟨o.language, l⟩ s.linkage) f.argumentNames types := by
  obtain ⟨r, resolved, structures, k₁, k₂, hcomes, -, hspans, hle, g, -, hrun⟩ :=
    h.function_step hv hf
  obtain ⟨types, response, throws, htypes, -, -, rfl, htext⟩ := RenderEnv.function_eq_ok hrun
  obtain rfl := htext _ hle
  refine ⟨k₁, types, response, throws, hspans, hle, ?_, rfl⟩
  rw [hcomes.within_eq]
  exact mapM_eq_ok.mp htypes

end Scope.Built

end IdlScope

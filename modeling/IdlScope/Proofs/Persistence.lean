import IdlScope.Proofs.Homes
import IdlScope.Proofs.Rosters
import IdlScope.Scope.Build

/-!
# Persistence — a file has one scope in every larger library

The scope of a document goes by the library it is built on. What was built meanwhile for
other files does not matter: on every larger library the document has the same scope, or
the same error (`Document.scope_eq`), and the includes of the scope stay inside the smaller
one (`Document.covered_of_scope`).

Naming is the same because plans are (`Site.roster_eq`). Finishing is followed step by step
in both libraries at once (`Alike`).
-/

namespace IdlScope

variable {l m : Library}

/-! ## Naming -/

theorem FieldDecl.expansion?_eq {p : Place} (hle : l ≤ m) (hl : l.Closed) (hp : p.Covered l)
    (f : FieldDecl) : f.expansion? m p = f.expansion? l p := by
  rw [FieldDecl.expansion?, Library.structureOf?_eq hle hl hp, FieldDecl.expansion?]

theorem FieldDecl.reaches_of_expansion? {p q : Place} {f : FieldDecl} {st : StructDecl}
    (h : f.expansion? l p = some (q, st)) : l.Reaches p q := by
  rw [FieldDecl.expansion?] at h
  split at h
  · exact Library.reaches_of_structureOf? (Option.filter_eq_some_iff.mp h).1
  · cases h

theorem planSlots_eq {p : Place} (hle : l ≤ m) (hl : l.Closed) (hp : p.Covered l) (o : Options)
    (s : StructDecl) : planSlots o m p s = planSlots o l p s := by
  rw [planSlots, planSlots]
  simp only [FieldDecl.expansion?_eq hle hl hp]

namespace Site

section Naming

variable {p : Place} (hle : l ≤ m) (hl : l.Closed) (hp : p.Covered l) (o : Options)
include hle hl hp

theorem nameFields_eq (s : StructDecl) :
    nameFields ⟨o, m, p⟩ s = nameFields ⟨o, l, p⟩ s := by
  unfold nameFields
  rw [planSlots_eq hle hl hp]
  rfl

theorem addStructure_eq (s : StructDecl) :
    addStructure ⟨o, m, p⟩ s = addStructure ⟨o, l, p⟩ s := by
  unfold addStructure
  rw [nameFields_eq hle hl hp]
  rfl

theorem addFunction_eq : addFunction ⟨o, m, p⟩ = addFunction ⟨o, l, p⟩ := by
  funext service f name
  rw [addFunction]
  rw [addStructure_eq hle hl hp, addStructure_eq hle hl hp]
  rfl

theorem addFunctions_eq (service : ServiceDecl) (names : NameTable) (fs : List FunctionDecl) :
    addFunctions ⟨o, m, p⟩ service names fs = addFunctions ⟨o, l, p⟩ service names fs := by
  induction fs generalizing names with
  | nil => rfl
  | cons f fs ih =>
      rw [addFunctions, addFunctions, addFunction_eq hle hl hp]
      simp only [ih]
      rfl

theorem addService_eq : addService ⟨o, m, p⟩ = addService ⟨o, l, p⟩ := by
  funext s
  rw [addService]
  simp only [addFunctions_eq hle hl hp]
  rfl

theorem roster_eq : roster ⟨o, m, p⟩ = roster ⟨o, l, p⟩ := by
  rw [roster, install]
  rw [addService_eq hle hl hp]
  simp only [addStructure_eq hle hl hp]
  rfl

end Naming

/-- What the place of a file hands on to the places it reaches, it hands on to the homes of
fields that stand for others. -/
theorem Sound.spreads_origin {w : Site} {r : Roster} (h : w.Sound r) {S : Place → Prop}
    {P : Home → Prop} (hS : ∀ {p q}, S p → w.library.Reaches p q → S q)
    (hP : ∀ {p}, S p → P p.home) (hp : S w.place) {st : Structure NamedField}
    (hst : st ∈ r.structures.all) {f : NamedField} (hf : f ∈ st.allFields) {o : Origin}
    (ho : f.origin = some o) : P o.home := by
  obtain ⟨slot, hslot, hf⟩ := List.mem_flatMap.mp hf
  obtain ⟨decl, -, hplan⟩ := (h.structures st hst).planned slot hslot
  -- the field of a slot has no origin, so it is one in place of another
  rcases List.mem_cons.mp hf with rfl | hf
  · have hnone : slot.field.origin = none := congrArg Prod.snd hplan.field
    cases ho.symm.trans hnone
  · have hview : f.view ∈ (slot.map NamedField.view).children := by
      rw [Slot.children_map]
      exact List.mem_map_of_mem hf
    cases hfound : decl.expansion? w.library w.place with
    | none =>
        rw [Slot.children, hplan.kept hfound] at hview
        exact absurd hview List.not_mem_nil
    | some found =>
        obtain ⟨q, target⟩ := found
        obtain ⟨children, hchildren, hall⟩ := hplan.replaced q target hfound
        rw [Slot.children, hchildren] at hview
        obtain ⟨child, -, id, -, heq⟩ := exists_of_mem_forall₂ hall hview
        have horigin : f.origin = some ⟨child, decl.name, q.home⟩ := congrArg Prod.snd heq
        rw [Option.some.inj (ho.symm.trans horigin)]
        exact hP (hS hp (FieldDecl.reaches_of_expansion? hfound))

/-- Fields that stand for others come from homes of the library. -/
theorem Sound.holds_origin {w : Site} {r : Roster} (h : w.Sound r) (hl : w.library.Closed)
    (hp : w.place.Covered w.library) {st : Structure NamedField} (hst : st ∈ r.structures.all)
    {f : NamedField} (hf : f ∈ st.allFields) {o : Origin} (ho : f.origin = some o) :
    w.library.Holds o.home :=
  h.spreads_origin hl.covered_of_reaches Place.Covered.home hp hst hf ho

end Site

/-! ## Steps in two libraries -/

/-- From a state with `C` the two steps do the same; what they give has `Q`, and the state
has `C` again. -/
def Alike {σ ε α : Type} (C : σ → Prop) (x y : StateT σ (Except ε) α) (Q : α → Prop) : Prop :=
  ∀ s, C s → y.run s = x.run s ∧ ∀ a t, x.run s = .ok (a, t) → Q a ∧ C t

namespace Alike

variable {σ ε α β : Type} {C : σ → Prop} {x y : StateT σ (Except ε) α} {Q : α → Prop}

protected theorem pure {a : α} (h : Q a) : Alike C (pure a : StateT σ (Except ε) α) (pure a) Q := by
  intro s hs
  refine ⟨rfl, ?_⟩
  intro b t hx
  obtain ⟨rfl, rfl⟩ := run_pure_eq_ok.mp hx
  exact ⟨h, hs⟩

protected theorem bind {f g : α → StateT σ (Except ε) β} {R : β → Prop} (h : Alike C x y Q)
    (h' : ∀ a, Q a → Alike C (f a) (g a) R) : Alike C (x >>= f) (y >>= g) R := by
  intro s hs
  constructor
  · rw [StateT.run_bind, StateT.run_bind, (h s hs).1]
    cases hx : x.run s with
    | error e => rfl
    | ok r =>
        obtain ⟨hQ, hC⟩ := (h s hs).2 r.1 r.2 hx
        exact (h' r.1 hQ r.2 hC).1
  · intro b t hx
    obtain ⟨a, r, ha, hb⟩ := run_bind_eq_ok.mp hx
    obtain ⟨hQ, hC⟩ := (h s hs).2 a r ha
    exact (h' a hQ r hC).2 b t hb

protected theorem map {f : α → β} (h : Alike C x y Q) :
    Alike C (f <$> x) (f <$> y) fun _ => True := by
  rw [← bind_pure_comp, ← bind_pure_comp]
  exact h.bind fun _ _ => .pure trivial

protected theorem get : Alike C (get : StateT σ (Except ε) σ) get C :=
  fun s hs => ⟨rfl, fun a t hx => by cases hx; exact ⟨hs, hs⟩⟩

protected theorem set {s : σ} (h : C s) :
    Alike C (set s : StateT σ (Except ε) PUnit) (set s) fun _ => True :=
  fun _ _ => ⟨rfl, fun a t hx => by cases hx; exact ⟨trivial, h⟩⟩

protected theorem modify {f : σ → σ} (h : ∀ s, C s → C (f s)) :
    Alike C (modify f : StateT σ (Except ε) PUnit) (modify f) fun _ => True :=
  fun s hs => ⟨rfl, fun a t hx => by cases hx; exact ⟨trivial, h s hs⟩⟩

protected theorem throw {e : ε} : Alike C (throw e : StateT σ (Except ε) α) (throw e) Q :=
  fun _ _ => ⟨rfl, fun _ _ hx => by cases hx⟩

/-- Steps that may fail and leave the state alone. -/
protected theorem lift {a b : Except ε α} (h : b = a) (hQ : ∀ r, a = .ok r → Q r) :
    Alike C (liftM a : StateT σ (Except ε) α) (liftM b) Q := by
  subst h
  intro s hs
  refine ⟨rfl, ?_⟩
  intro r t hx
  cases b with
  | error e => cases hx
  | ok b =>
      cases hx
      exact ⟨hQ _ rfl, hs⟩

protected theorem mapM {f g : α → StateT σ (Except ε) β} (xs : List α)
    (h : ∀ a, Alike C (f a) (g a) fun _ => True) :
    Alike C (xs.mapM f) (xs.mapM g) fun _ => True := by
  induction xs with
  | nil => exact .pure trivial
  | cons a xs ih =>
      rw [List.mapM_cons, List.mapM_cons]
      exact (h a).bind fun _ _ => ih.bind fun _ _ => .pure trivial

/-- Writing what is at home in the smaller library. -/
theorem rendering {g : Language} (hle : l ≤ m) {x y : Link α} {homes : List Home}
    {out : (Home → Option String) → α} (hx : RenderEnv.Writes ⟨g, l⟩ x homes out)
    (hy : RenderEnv.Writes ⟨g, m⟩ y homes out) (hh : ∀ h ∈ homes, l.Holds h) :
    Alike (Linkage.Covered l) (rendering x) (rendering y) fun _ => True := by
  intro k hk
  refine ⟨congrArg Except.ok (hx.run_eq hle hy hh k), ?_⟩
  intro a t hrun
  have ht : t = (x.run k).2 := congrArg Prod.snd (Except.ok.inj hrun).symm
  rw [ht, hx.linkage]
  exact ⟨trivial, hk.visit g homes⟩

end Alike

/-! ## Finishing -/

namespace RenderEnv

section Signatures

variable {S : Place → Prop} {P : Home → Prop} (hS : ∀ {p q}, S p → l.Reaches p q → S q)
  (hP : ∀ {p}, S p → P p.home) {g : Language} {p : Place} (hp : S p)
include hS hP hp

theorem spreads_parameterTypes {owner : String} {fields : List FieldDecl} {ts : List TypeExpr}
    (h : parameterTypes ⟨g, l⟩ p owner fields = .ok ts) : ∀ t ∈ ts, ∀ home ∈ t.homes, P home := by
  intro t ht
  obtain ⟨f, _, hf⟩ := exists_of_mem_forall₂ (mapM_eq_ok.mp h) ht
  exact spreads_resolveInSignature hS hP hp hf

theorem spreads_responseType {structures : StructureLists Field} {owner : String}
    {f : NamedFunction} {response : Option TypeExpr}
    (h : responseType ⟨g, l⟩ p structures owner f = .ok response) :
    ∀ t ∈ response, ∀ home ∈ t.homes, P home := by
  rw [responseType] at h
  split at h
  · cases h
    exact fun t ht => by cases ht
  · split at h
    all_goals
      obtain ⟨t, ht, rfl⟩ := map_eq_ok.mp h
      rintro _ ⟨⟩
    · exact spreads_resolveType hS hP hp ht
    · exact spreads_resolveInSignature hS hP hp ht

end Signatures

section Finishing

variable {g : Language} (hle : l ≤ m) (hl : l.Closed) {own : Place} (hown : own.home = .here)
include hle hl hown

omit hle hl in
theorem covered_placeNow {k : Linkage} (hk : k.Covered l) : (placeNow own k).Covered l :=
  Place.covered_of_linkage (p := placeNow own k) (hown ▸ trivial : l.Holds own.home) hk rfl

theorem alike_typedef (t : NamedTypedef) :
    Alike (Linkage.Covered l) (typedef ⟨g, l⟩ own t) (typedef ⟨g, m⟩ own t) fun _ => True := by
  rw [typedef]
  refine .bind .get fun k hk => ?_
  have hp := covered_placeNow hown hk
  refine .bind (.lift (Library.resolveType_eq hle hl hp _ _) fun _ h =>
    holds_resolveType hl hp h) fun target htarget => ?_
  exact .bind (.rendering hle (writes_type _ target) (writes_type _ target) htarget)
    fun _ _ => .pure trivial

theorem alike_constant (c : NamedConstant) :
    Alike (Linkage.Covered l) (constant ⟨g, l⟩ own c) (constant ⟨g, m⟩ own c) fun _ => True := by
  rw [constant]
  refine .bind .get fun k hk => ?_
  have hp := covered_placeNow hown hk
  refine .bind (.lift (Library.resolveType_eq hle hl hp _ _) fun _ h =>
    holds_resolveType hl hp h) fun t ht => ?_
  refine .bind (.lift (Library.resolveValue_eq hle hl hp _ _) fun _ h =>
    holds_resolveValue hl hp h ht) fun v hv => ?_
  refine .bind (.rendering hle (writes_type _ t) (writes_type _ t) ht) fun text _ => ?_
  exact .bind (.rendering hle (writes_value _ t text.text v) (writes_value _ t text.text v) hv)
    fun _ _ => .pure trivial

theorem alike_serviceBase (s : NamedService) :
    Alike (Linkage.Covered l) (serviceBase ⟨g, l⟩ own s) (serviceBase ⟨g, m⟩ own s)
      fun _ => True := by
  rw [serviceBase, serviceBase]
  cases s.decl.base with
  | none => exact .pure trivial
  | some base =>
      refine .bind .get fun k hk => ?_
      have hp := covered_placeNow hown hk
      dsimp only
      rw [Library.declaration?_eq hle hl hp]
      cases hfound : l.declaration? (placeNow own k) base s.decl.baseReference (· == .service) with
      | none => exact .throw
      | some found =>
          obtain ⟨q, d⟩ := found
          have hq := Library.covered_of_declaration? hl hp hfound
          refine .bind .get fun k' hk' => ?_
          rw [qualifierOf_eq hle k' hq.home]
          refine .bind (.set ?_) fun _ _ => .pure trivial
          exact hk'.visit g [q.home]

omit hown in
theorem parameterTypes_eq {p : Place} (hp : p.Covered l) (owner : String)
    (fields : List FieldDecl) :
    parameterTypes ⟨g, m⟩ p owner fields = parameterTypes ⟨g, l⟩ p owner fields :=
  mapM_congr fun f _ => Library.resolveInSignature_eq hle hl hp f.type _

omit hown in
theorem responseType_eq {p : Place} (hp : p.Covered l) (structures : StructureLists Field)
    (owner : String) (f : NamedFunction) :
    responseType ⟨g, m⟩ p structures owner f = responseType ⟨g, l⟩ p structures owner f := by
  rw [responseType, responseType]
  dsimp only
  rw [Library.resolveType_eq hle hl hp, Library.resolveInSignature_eq hle hl hp]

omit hl hown in
theorem alike_params {types : List TypeExpr} (names : List NamedParam)
    (h : ∀ t ∈ types, ∀ home ∈ t.homes, l.Holds home) :
    Alike (Linkage.Covered l) (rendering (params ⟨g, l⟩ names types))
      (rendering (params ⟨g, m⟩ names types)) fun _ => True := by
  refine .rendering hle (writes_params _ names types) (writes_params _ names types) ?_
  intro home hhome
  obtain ⟨⟨n, t⟩, hmem, hhome⟩ := List.mem_flatMap.mp hhome
  exact h t (List.of_mem_zip hmem).2 home hhome

theorem alike_function (structures : StructureLists Field) (serviceName : String)
    (f : NamedFunction) :
    Alike (Linkage.Covered l) (function ⟨g, l⟩ own structures serviceName f)
      (function ⟨g, m⟩ own structures serviceName f) fun _ => True := by
  rw [function]
  refine .bind .get fun k hk => ?_
  have hp := covered_placeNow hown hk
  refine .bind (.lift (parameterTypes_eq hle hl hp _ _) fun _ h =>
    spreads_parameterTypes hl.covered_of_reaches Place.Covered.home hp h)
    fun arguments harguments => ?_
  refine .bind (.lift (responseType_eq hle hl hp _ _ _) fun _ h =>
    spreads_responseType hl.covered_of_reaches Place.Covered.home hp h) fun response hresponse => ?_
  refine .bind (.lift (parameterTypes_eq hle hl hp _ _) fun _ h =>
    spreads_parameterTypes hl.covered_of_reaches Place.Covered.home hp h) fun throws hthrows => ?_
  refine .bind (alike_params hle _ harguments) fun arguments _ => ?_
  -- with a response or without, the exceptions are written last
  have hrest : ∀ response : Option Rendered, Alike (Linkage.Covered l)
      (do
        let throws ← rendering (params ⟨g, l⟩ f.throwNames throws)
        return ({ f with arguments, response, throws } : Function))
      (do
        let throws ← rendering (params ⟨g, m⟩ f.throwNames throws)
        return ({ f with arguments, response, throws } : Function))
      fun _ => True :=
    fun _ => .bind (alike_params hle _ hthrows) fun _ _ => .pure trivial
  cases response with
  | none => exact hrest none
  | some t =>
      exact .bind (.map (.rendering hle (writes_type _ t) (writes_type _ t) (hresponse t rfl)))
        fun response _ => hrest response

theorem alike_service (structures : StructureLists Field) (s : NamedService × Option ServiceBase) :
    Alike (Linkage.Covered l) (service ⟨g, l⟩ own structures s) (service ⟨g, m⟩ own structures s)
      fun _ => True := by
  rw [service]
  exact .bind (.mapM _ fun f => alike_function hle hl hown structures _ f) fun _ _ => .pure trivial

end Finishing

end RenderEnv

theorem alike_finish {g : Language} {own : Place} (hle : l ≤ m) (hl : l.Closed)
    (hown : own.home = .here) (r : Roster) {resolved : StructureLists ResolvedField}
    (hresolved : ∀ s ∈ resolved.all, ∀ f ∈ s.allFields, ∀ h ∈ f.homes, l.Holds h) :
    Alike (Linkage.Covered l) (r.finish ⟨g, l⟩ own resolved) (r.finish ⟨g, m⟩ own resolved)
      fun _ => True := by
  rw [Roster.finish]
  refine .bind (.rendering hle (.ofStructures (RenderEnv.writes_field ⟨g, l⟩) resolved)
    (.ofStructures (RenderEnv.writes_field ⟨g, m⟩) resolved) ?_) fun structures _ => ?_
  · intro h hh
    obtain ⟨s, hs, hh⟩ := List.mem_flatMap.mp hh
    obtain ⟨f, hf, hh⟩ := List.mem_flatMap.mp hh
    exact hresolved s hs f hf h hh
  refine .bind (.mapM _ (RenderEnv.alike_typedef hle hl hown)) fun typedefs _ => ?_
  refine .bind (.mapM _ (RenderEnv.alike_constant hle hl hown)) fun constants _ => ?_
  refine .bind (.modify fun k hk => hk) fun _ _ => ?_
  refine .bind (.mapM _ (RenderEnv.alike_serviceBase hle hl hown)) fun bases _ => ?_
  exact .bind (.mapM _ (RenderEnv.alike_service hle hl hown structures)) fun _ _ => .pure trivial

theorem resolveField_eq {own : Place} (hle : l ≤ m) (hl : l.Closed) (hown : own.Covered l)
    (name : String) {f : NamedField} (hf : ∀ o, f.origin = some o → l.Holds o.home) :
    m.resolveField own name f = l.resolveField own name f := by
  rw [Library.resolveField, Library.resolveField]
  cases horigin : f.origin with
  | none =>
      dsimp only
      simp only [Library.resolveType_eq hle hl hown, Library.resolveValue_eq hle hl hown]
  | some o =>
      have hp := hl.covered_of_sees hown (Library.sees_placeOf own o.home)
      dsimp only
      rw [Library.placeOf_eq hle (hf o horigin)]
      simp only [Library.resolveType_eq hle hl hp, Library.resolveValue_eq hle hl hp]

/-- The place where a field was declared. -/
def Library.declaringPlace (l : Library) (own : Place) (f : NamedField) : Place :=
  match f.origin with
  | some o => l.placeOf own o.home
  | none => own

theorem Library.sees_declaringPlace (l : Library) (own : Place) (f : NamedField) :
    l.Sees own (l.declaringPlace own f) := by
  rw [declaringPlace]
  split
  · exact sees_placeOf own _
  · exact .inl rfl

/-- The place where a field was declared is the same in every larger library. -/
theorem declaringPlace_eq (hle : l ≤ m) (own : Place) {f : NamedField}
    (hf : ∀ o, f.origin = some o → l.Holds o.home) :
    m.declaringPlace own f = l.declaringPlace own f := by
  cases horigin : f.origin with
  | none => simp only [Library.declaringPlace, horigin]
  | some o =>
      simp only [Library.declaringPlace, horigin]
      exact Library.placeOf_eq hle (hf o horigin) own

/-- A resolved field has kept its names, and its type and value were resolved where the field
was declared. -/
theorem resolveField_eq_ok {own : Place} {name : String} {f : NamedField} {r : ResolvedField}
    (h : l.resolveField own name f = .ok r) :
    r.toNamedField = f ∧
    l.resolveType (l.declaringPlace own f) f.decl.type (name ++ "." ++ f.decl.name) =
      .ok r.typeExpr ∧
    f.decl.initial.mapM (l.resolveValue (l.declaringPlace own f) (name ++ "." ++ f.decl.name)) =
      .ok r.valueExpr := by
  obtain ⟨t, ht, h⟩ := bind_eq_ok.mp h
  cases hinitial : f.decl.initial with
  | none =>
      simp only [hinitial] at h
      obtain ⟨v, hv, h⟩ := bind_eq_ok.mp h
      cases hv
      cases h
      exact ⟨rfl, ht, rfl⟩
  | some c =>
      simp only [hinitial] at h
      obtain ⟨v, hv, h⟩ := bind_eq_ok.mp h
      obtain ⟨e, he, rfl⟩ := map_eq_ok.mp hv
      cases h
      exact ⟨rfl, ht, optionMapM_eq_ok.mpr (.inr ⟨c, e, rfl, rfl, he⟩)⟩

/-- What the place of a field hands on to the places it reaches, it hands on to all that the
field mentions. -/
theorem spreads_resolveField {S : Place → Prop} {P : Home → Prop}
    (hS : ∀ {p q}, S p → l.Reaches p q → S q) (hP : ∀ {p}, S p → P p.home) {own : Place}
    {name : String} {f : NamedField} {r : ResolvedField} (hp : S (l.declaringPlace own f))
    (h : l.resolveField own name f = .ok r) : ∀ home ∈ r.homes, P home := by
  obtain ⟨rfl, ht, hv⟩ := resolveField_eq_ok h
  have htype := spreads_resolveType hS hP hp ht
  intro home hhome
  rcases List.mem_append.mp hhome with hhome | hhome
  · exact htype home hhome
  · rcases optionMapM_eq_ok.mp hv with ⟨-, hnone⟩ | ⟨c, e, -, hsome, he⟩
    · rw [hnone] at hhome
      exact absurd hhome List.not_mem_nil
    · rw [hsome] at hhome
      exact spreads_resolveValue hS hP hp he htype home hhome

/-! ## The whole file -/

/-- The place of a document whose includes are linked, before it has names. -/
def Document.bare (d : Document) (k : Linkage) : Place :=
  ⟨.here, ⟨d, k.includes, .empty, []⟩⟩

/-- The place of a document with its roster. -/
def Roster.place (r : Roster) (d : Document) (k : Linkage) : Place :=
  ⟨.here, r.directory d k.includes⟩

theorem Document.covered_bare (d : Document) {k : Linkage} (hk : k.Covered l) :
    (d.bare k).Covered l :=
  Place.covered_of_linkage (p := d.bare k) trivial hk rfl

theorem Roster.covered_place (r : Roster) (d : Document) {k : Linkage} (hk : k.Covered l) :
    (r.place d k).Covered l :=
  Place.covered_of_linkage (p := r.place d k) trivial hk rfl

/-- A scope that was built has gone through all stages. -/
structure Document.Passes (d : Document) (o : Options) (l : Library) (k : Linkage) (r : Roster)
    (resolved : StructureLists ResolvedField) (done : Finished) (s : Scope) : Prop where
  named : Site.roster ⟨o, l, d.bare k⟩ = .ok r
  fields : r.structures.mapM (l.resolveField (r.place d k)) = .ok resolved
  finished : (r.finish ⟨o.language, l⟩ (r.place d k) resolved).run k = .ok (done, s.linkage)
  result : s = ⟨d, s.linkage, r.globals, r.declared, done.structures, r.enums, done.typedefs,
    done.constants, done.services, r.expansions, r.diagnostics⟩

theorem Document.scope_eq_bind (d : Document) (o : Options) (l : Library) (k : Linkage) :
    d.scope o l k = Site.roster ⟨o, l, d.bare k⟩ >>= fun r =>
      (r.scope o.language l d k).mapError .resolve :=
  rfl

theorem Document.scope_eq_ok {d : Document} {o : Options} {k : Linkage} {s : Scope}
    (h : d.scope o l k = .ok s) : ∃ r resolved done, d.Passes o l k r resolved done s := by
  obtain ⟨r, hr, h⟩ := bind_eq_ok.mp h
  have hscope : r.scope o.language l d k = .ok s := by
    cases hs : r.scope o.language l d k with
    | error e =>
        rw [hs] at h
        cases h
    | ok t =>
        rw [hs] at h
        exact congrArg Except.ok (Except.ok.inj h)
  obtain ⟨resolved, hresolved, hscope⟩ := bind_eq_ok.mp hscope
  obtain ⟨⟨done, k'⟩, hdone, hscope⟩ := bind_eq_ok.mp hscope
  obtain rfl := pure_eq_ok.mp hscope
  exact ⟨r, resolved, done, hr, hresolved, hdone, rfl⟩

/-- A document without a scope has no roster, or something in it cannot be resolved. -/
theorem Document.scope_eq_error {d : Document} {o : Options} {k : Linkage} {e : BuildError}
    (h : d.scope o l k = .error e) :
    Site.roster ⟨o, l, d.bare k⟩ = .error e ∨ ∃ error, e = .resolve error := by
  rw [scope_eq_bind] at h
  rcases bind_eq_error.mp h with h | ⟨r, -, h⟩
  · exact .inl h
  · cases hscope : r.scope o.language l d k with
    | ok s =>
        rw [hscope] at h
        cases h
    | error error =>
        rw [hscope] at h
        cases h
        exact .inr ⟨error, rfl⟩

section Scopes

variable (hl : l.Closed) {k : Linkage} (hk : k.Covered l)
include hl hk

/-- All that the resolved fields of a file mention is at home in the library. -/
theorem holds_resolved {r : Roster} {d : Document} {resolved : StructureLists ResolvedField}
    (h : r.structures.mapM (l.resolveField (r.place d k)) = .ok resolved) :
    ∀ s ∈ resolved.all, ∀ f ∈ s.allFields, ∀ home ∈ f.homes, l.Holds home := by
  intro s hs f hf
  have hfield := (StructureLists.mapM_eq_ok
    (fun _ _ _ h => (resolveField_eq_ok h).1) h).2 s hs f hf
  exact spreads_resolveField hl.covered_of_reaches Place.Covered.home
    (hl.covered_of_sees (r.covered_place d hk) (l.sees_declaringPlace _ _)) hfield

theorem Document.Passes.covered {d : Document} {o : Options} {r : Roster}
    {resolved : StructureLists ResolvedField} {done : Finished} {s : Scope}
    (h : d.Passes o l k r resolved done s) : s.linkage.Covered l :=
  ((alike_finish (le_refl l) hl rfl r (holds_resolved hl hk h.fields) k hk).2 _ _ h.finished).2

/-- The includes of a scope stay inside the library that it was built on. -/
theorem Document.covered_of_scope {d : Document} {o : Options} {s : Scope}
    (h : d.scope o l k = .ok s) : s.linkage.Covered l := by
  obtain ⟨r, resolved, done, h⟩ := Document.scope_eq_ok h
  exact h.covered hl hk

/-- The stages behind naming are the same on every larger library. -/
theorem Roster.scope_eq (hle : l ≤ m) {r : Roster} {d : Document} {o : Options}
    (h : Site.roster ⟨o, l, d.bare k⟩ = .ok r) :
    r.scope o.language m d k = r.scope o.language l d k := by
  have hsound := Site.sound_roster _ h
  have hfields : r.structures.mapM (m.resolveField (r.place d k)) =
      r.structures.mapM (l.resolveField (r.place d k)) := by
    refine StructureLists.mapM_congr fun st hst f hf => ?_
    exact resolveField_eq hle hl (r.covered_place d hk) _
      fun o ho => hsound.holds_origin hl (d.covered_bare hk) hst hf ho
  -- the stages as a chain, for any library, so that they are compared one by one
  have hdef : ∀ n : Library, r.scope o.language n d k =
      r.structures.mapM (n.resolveField (r.place d k)) >>= fun resolved =>
        (r.finish ⟨o.language, n⟩ (r.place d k) resolved).run k >>= fun done =>
          pure ⟨d, done.2, r.globals, r.declared, done.1.structures, r.enums, done.1.typedefs,
            done.1.constants, done.1.services, r.expansions, r.diagnostics⟩ := fun _ => rfl
  rw [hdef, hdef, hfields]
  cases hresolved : r.structures.mapM (l.resolveField (r.place d k)) with
  | error e => rw [error_bind, error_bind]
  | ok resolved =>
      have hown : (r.place d k).home = .here := rfl
      have hfinish := (alike_finish (g := o.language) hle hl hown r
        (holds_resolved hl hk hresolved) k hk).1
      rw [ok_bind, ok_bind, hfinish]

/-- A document has the same scope, or the same error, on every larger library. -/
theorem Document.scope_eq (hle : l ≤ m) (d : Document) (o : Options) :
    d.scope o m k = d.scope o l k := by
  rw [scope_eq_bind, scope_eq_bind, Site.roster_eq hle hl (d.covered_bare hk) o]
  cases hr : Site.roster ⟨o, l, d.bare k⟩ with
  | error e => rw [error_bind, error_bind]
  | ok r => rw [ok_bind, ok_bind, Roster.scope_eq hl hk hle hr]

end Scopes

end IdlScope

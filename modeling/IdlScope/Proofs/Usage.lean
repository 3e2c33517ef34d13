import IdlScope.Proofs.Runs

/-!
# Usage — an import is used if and only if something mentions it

Rendering marks what it mentions, pruning takes back what only expanded fields mention, and
services mark what they mention afterwards. The marks are followed through all of this as
the set of aliases in use:

* **`Linkage.Using`** — the linkage is tidy, has grown from another one, and the aliases in
  use are the given ones.
* **`RenderEnv.mem_usedNames_visit`** — asking for qualifiers adds exactly the aliases given.
* **`Roster.finish_eq_ok`** — the stages of finishing, one linkage after the other.
* **`import_used_iff`** — in every scope that a run comes to, an import is used exactly if
  its alias stands in the output.
-/

namespace IdlScope

/-! ## Mentions -/

/-- The alias stands in the type of an argument or an exception, or in the response. -/
def Function.Mentions (f : Function) (a : String) : Prop :=
  (∃ p ∈ f.arguments, a ∈ p.type.qualifiers) ∨
  (∃ r, f.response = some r ∧ a ∈ r.qualifiers) ∨
  ∃ p ∈ f.throws, a ∈ p.type.qualifiers

/-- The alias stands in the output: in a field that generated code has, in a typedef, in a
constant, or in the base or a function of a service. -/
def Scope.Mentions (s : Scope) (a : String) : Prop :=
  (∃ st ∈ s.structures.all, ∃ f ∈ st.flattenedFields,
    a ∈ f.type.qualifiers ∨ a ∈ f.plainType.qualifiers ∨ a ∈ f.value.qualifiers) ∨
  (∃ t ∈ s.typedefs, a ∈ t.type.qualifiers) ∨
  (∃ c ∈ s.constants, a ∈ c.type.qualifiers ∨ a ∈ c.init.qualifiers) ∨
  (∃ v ∈ s.services, ∃ base, v.base = some base ∧ base.qualifier = some a) ∨
  ∃ v ∈ s.services, ∃ f ∈ v.functions, f.Mentions a

/-! ## Aliases in use -/

/-- The linkage is tidy and has grown from `k₀`, and `U` are its aliases in use. -/
structure Linkage.Using (k₀ : Linkage) (U : String → Prop) (k : Linkage) : Prop where
  tidy : k.Tidy
  le : k₀ ≤ k
  used : ∀ a, a ∈ k.usedNames ↔ U a

namespace RenderEnv

variable (e : RenderEnv)

theorem tidy_qualifierOf {k : Linkage} (h : k.Tidy) (home : Home) :
    (e.qualifierOf k home).2.Tidy := by
  unfold qualifierOf
  split
  · exact h
  · split
    · exact h
    · exact h.qualifierFor _ _ _

theorem mem_usedNames_qualifierOf {k : Linkage} (h : k.Tidy) (home : Home) (a : String) :
    a ∈ (e.qualifierOf k home).2.usedNames ↔
      a ∈ k.usedNames ∨ (e.qualifierOf k home).1 = some a := by
  unfold qualifierOf
  split
  · simp
  · split
    · simp
    · exact Linkage.mem_usedNames_qualifierFor _ _ _ h

theorem tidy_visit {k : Linkage} (h : k.Tidy) (homes : List Home) : (e.visit k homes).Tidy := by
  induction homes generalizing k with
  | nil => exact h
  | cons home homes ih => exact ih (e.tidy_qualifierOf h home)

/-- Asking for qualifiers puts exactly the given ones in use. -/
theorem mem_usedNames_visit {k : Linkage} (h : k.Tidy) (homes : List Home) (a : String) :
    a ∈ (e.visit k homes).usedNames ↔
      a ∈ k.usedNames ∨ some a ∈ homes.map (e.answer (e.visit k homes)) := by
  induction homes generalizing k with
  | nil => simp
  | cons home homes ih =>
      have hgiven : e.answer (e.visit k (home :: homes)) home = (e.qualifierOf k home).1 :=
        answer_of_qualifierOf_le e (le_visit e _ homes)
      rw [List.map_cons, List.mem_cons, hgiven, visit_cons, ih (e.tidy_qualifierOf h home),
        mem_usedNames_qualifierOf e h, or_assoc, eq_comm (a := some a)]

end RenderEnv

/-! ## Steps of finishing -/

/-- The aliases that a step puts in use, as its result tells them. -/
def Marks {α : Type} (x : Finish α) (Q : α → String → Prop) : Prop :=
  ∀ k₀ U, Ensures (Linkage.Using k₀ U) x fun a => Linkage.Using k₀ fun n => U n ∨ Q a n

namespace Marks

variable {α β : Type} {x : Finish α} {Q : α → String → Prop}

theorem mapM {f : β → Finish α} (h : ∀ b, Marks (f b) Q) (bs : List β) :
    Marks (bs.mapM f) fun as n => ∃ a ∈ as, Q a n := by
  induction bs with
  | nil =>
      intro k₀ U
      exact .pure fun k hk => ⟨hk.tidy, hk.le, fun n => by simp [hk.used]⟩
  | cons b bs ih =>
      intro k₀ U
      rw [List.mapM_cons]
      refine .bind (h b k₀ U) fun a => .bind (ih k₀ _) fun as => .pure fun k hk =>
        ⟨hk.tidy, hk.le, fun n => ?_⟩
      simp only [hk.used, or_assoc, List.mem_cons, exists_eq_or_imp]

/-- What is written marks the qualifiers of its homes. -/
theorem rendering {e : RenderEnv} {x : Link α} {homes : List Home}
    {out : (Home → Option String) → α} (hx : RenderEnv.Writes e x homes out)
    (hQ : ∀ q n, Q (out q) n ↔ some n ∈ homes.map q) : Marks (rendering x) Q := by
  intro k₀ U k a t hk hrun
  obtain ⟨ha, ht⟩ := Prod.mk.inj (Except.ok.inj hrun)
  have hvisit : t = e.visit k homes := ht.symm.trans (hx.linkage k)
  have hout : a = out (e.answer (e.visit k homes)) :=
    ha.symm.trans (hx.result k _ fun _ _ => rfl)
  subst hvisit
  refine ⟨e.tidy_visit hk.tidy homes, hk.le.trans (e.le_visit k homes), ?_⟩
  intro n
  rw [e.mem_usedNames_visit hk.tidy, hk.used, hout, hQ]

end Marks

/-! ## What is written mentions its homes -/

theorem mem_written_type {g : Language} {q : Home → Option String} {t : TypeExpr} {n : String} :
    n ∈ (t.written g q).qualifiers ↔ some n ∈ t.homes.map q := by
  rw [TypeExpr.written, RenderEnv.mem_noted]
  simp

theorem mem_written_value {g : Language} {q : Home → Option String} {t : TypeExpr} {text : String}
    {v : ValueExpr} {n : String} :
    n ∈ (v.written g q t text).qualifiers ↔ some n ∈ (v.homes t).map q := by
  rw [ValueExpr.written, RenderEnv.mem_noted]
  simp

theorem mem_mentions_written {g : Language} {q : Home → Option String} {f : ResolvedField}
    {n : String} : n ∈ (f.written g q).mentions ↔ some n ∈ f.homes.map q := by
  have htype : n ∈ (f.written g q).type.qualifiers ↔ some n ∈ f.typeExpr.homes.map q :=
    mem_written_type (g := g)
  have hplain : n ∈ (f.written g q).plainType.qualifiers ↔ some n ∈ f.typeExpr.homes.map q :=
    mem_written_type (g := g)
  rw [Field.mentions, List.mem_append, List.mem_append, htype, hplain, ResolvedField.homes,
    List.map_append, List.mem_append, or_self]
  refine or_congr Iff.rfl ?_
  cases hv : f.valueExpr with
  | none => simp [ResolvedField.written, ResolvedField.typing, hv]
  | some v =>
      rw [ResolvedField.value_of_some hv, mem_written_value]
      rfl

namespace RenderEnv

variable (e : RenderEnv)

theorem marks_type (t : TypeExpr) :
    Marks (rendering (e.type t)) fun (r : Rendered) n => n ∈ r.qualifiers :=
  .rendering (writes_type e t) fun _ _ => mem_written_type

theorem marks_value (t : TypeExpr) (text : String) (v : ValueExpr) :
    Marks (rendering (e.value t text v)) fun (r : Rendered) n => n ∈ r.qualifiers :=
  .rendering (writes_value e t text v) fun _ _ => mem_written_value

theorem marks_structures (resolved : StructureLists ResolvedField) :
    Marks (rendering (resolved.mapM fun _ => e.field)) fun (l : StructureLists Field) n =>
      ∃ s ∈ l.all, ∃ f ∈ s.allFields, n ∈ f.mentions := by
  refine .rendering (.ofStructures (writes_field e) resolved) fun q n => ?_
  rw [List.map_flatMap, List.mem_flatMap, StructureLists.all_map]
  simp only [List.mem_map (l := resolved.all), exists_exists_and_eq_and, Structure.allFields_map]
  refine exists_congr fun s => and_congr_right fun _ => ?_
  rw [List.map_flatMap, List.mem_flatMap]
  simp only [List.mem_map (l := s.allFields), exists_exists_and_eq_and, mem_mentions_written]

theorem marks_typedef (own : Place) (t : NamedTypedef) :
    Marks (e.typedef own t) fun (t : Typedef) n => n ∈ t.type.qualifiers := by
  intro k₀ U
  refine .bind_get fun k _ => .bind (.lift fun _ _ _ h => h) fun target => ?_
  exact .bind (e.marks_type target k₀ U) fun plain => .pure fun _ h => h

theorem marks_constant (own : Place) (c : NamedConstant) :
    Marks (e.constant own c) fun (c : Constant) n =>
      n ∈ c.type.qualifiers ∨ n ∈ c.init.qualifiers := by
  intro k₀ U
  refine .bind_get fun k _ => .bind (.lift fun _ _ _ h => h) fun t => ?_
  refine .bind (.lift fun _ _ _ h => h) fun v => .bind (e.marks_type t k₀ U) fun type => ?_
  refine .bind (e.marks_value t type.text v k₀ _) fun init => .pure fun k h => ?_
  exact ⟨h.tidy, h.le, fun n => by rw [h.used, or_assoc]⟩

theorem marks_serviceBase (own : Place) (s : NamedService) :
    Marks (e.serviceBase own s) fun (b : Option ServiceBase) n =>
      ∃ base, b = some base ∧ base.qualifier = some n := by
  intro k₀ U
  rw [serviceBase]
  cases s.decl.base with
  | none => exact .pure fun k h => ⟨h.tidy, h.le, fun n => by simp [h.used]⟩
  | some base =>
      refine .bind_get fun k _ => ?_
      dsimp only
      split
      · exact .throw
      · next q found _ =>
        refine .bind_get fun k hk => ?_
        refine .bind (Q := fun _ => Linkage.Using k₀ fun n =>
          U n ∨ (e.qualifierOf k q.home).1 = some n) (.set fun _ => ?_) fun _ => .pure fun k h => ?_
        · exact ⟨e.tidy_qualifierOf hk.tidy q.home, hk.le.trans (e.le_qualifierOf k q.home),
            fun n => by rw [e.mem_usedNames_qualifierOf hk.tidy, hk.used]⟩
        · exact ⟨h.tidy, h.le, fun n => by simp [h.used]⟩

theorem marks_params (names : List NamedParam) (types : List TypeExpr) :
    Marks (rendering (e.params names types)) fun (ps : List Param) n =>
      ∃ p ∈ ps, n ∈ p.type.qualifiers := by
  refine .rendering (writes_params e names types) fun q n => ?_
  rw [List.map_flatMap, List.mem_flatMap]
  simp only [List.mem_map (l := names.zip types), exists_exists_and_eq_and, mem_written_type]

theorem marks_function (own : Place) (structures : StructureLists Field) (serviceName : String)
    (f : NamedFunction) :
    Marks (e.function own structures serviceName f) Function.Mentions := by
  intro k₀ U
  refine .bind_get fun k _ => .bind (.lift fun _ _ _ h => h) fun arguments => ?_
  refine .bind (.lift fun _ _ _ h => h) fun response => ?_
  refine .bind (.lift fun _ _ _ h => h) fun throws => ?_
  refine .bind (e.marks_params f.argumentNames arguments k₀ U) fun arguments => ?_
  -- the exceptions come last, whether there is a response or not
  have hrest : ∀ response : Option Rendered,
      Ensures (Linkage.Using k₀ fun n => (U n ∨ ∃ p ∈ arguments, n ∈ p.type.qualifiers) ∨
          ∃ r, response = some r ∧ n ∈ r.qualifiers)
        (do
          let throws ← rendering (e.params f.throwNames throws)
          return ({ f with arguments, response, throws } : Function))
        fun f => Linkage.Using k₀ fun n => U n ∨ f.Mentions n := by
    intro response
    refine .bind (e.marks_params f.throwNames throws k₀ _) fun throws => .pure fun k h => ?_
    exact ⟨h.tidy, h.le, fun n => by rw [h.used, Function.Mentions, or_assoc, or_assoc]⟩
  cases response with
  | none =>
      refine .bind (Q := fun response => Linkage.Using k₀ fun n =>
        (U n ∨ ∃ p ∈ arguments, n ∈ p.type.qualifiers) ∨
          ∃ r, response = some r ∧ n ∈ r.qualifiers) (.pure fun k h => ?_) hrest
      exact ⟨h.tidy, h.le, fun n => by simp [h.used]⟩
  | some t =>
      refine .bind (.map ((e.marks_type t k₀ _).weaken fun r k h => ?_)) hrest
      exact ⟨h.tidy, h.le, fun n => by simp [h.used]⟩

theorem marks_service (own : Place) (structures : StructureLists Field)
    (s : NamedService × Option ServiceBase) :
    Marks (e.service own structures s) fun (v : Service) n => ∃ f ∈ v.functions, f.Mentions n := by
  intro k₀ U
  refine .bind (Marks.mapM (e.marks_function own structures s.1.decl.name) _ k₀ U)
    fun functions => .pure fun _ h => h

/-- A service keeps the base that was found for it. -/
theorem base_service (own : Place) (structures : StructureLists Field)
    (s : NamedService × Option ServiceBase) :
    Ensures (fun _ => True) (e.service own structures s) fun v _ => v.base = s.2 :=
  .bind (Q := fun _ _ => True) (fun _ _ _ _ _ => trivial) fun _ => .pure fun _ _ => rfl

end RenderEnv

/-! ## The stages of finishing -/

/-- Finishing that went well has gone through its stages. -/
structure Roster.Finishes (r : Roster) (e : RenderEnv) (own : Place)
    (resolved : StructureLists ResolvedField) (k : Linkage) (done : Finished) (k' : Linkage)
    (found : List (Option ServiceBase)) (k₁ k₂ k₃ k₄ : Linkage) : Prop where
  structures : (rendering (resolved.mapM fun _ => e.field)).run k = .ok (done.structures, k₁)
  typedefs : (r.typedefs.mapM (e.typedef own)).run k₁ = .ok (done.typedefs, k₂)
  constants : (r.constants.mapM (e.constant own)).run k₂ = .ok (done.constants, k₃)
  bases : (r.services.mapM (e.serviceBase own)).run
    (k₃.prune (mentionedAliases done.structures done.typedefs done.constants)) = .ok (found, k₄)
  services : ((r.services.zip found).mapM (e.service own done.structures)).run k₄ =
    .ok (done.services, k')

theorem Roster.finish_eq_ok {r : Roster} {e : RenderEnv} {own : Place}
    {resolved : StructureLists ResolvedField} {k k' : Linkage} {done : Finished}
    (h : (r.finish e own resolved).run k = .ok (done, k')) :
    ∃ bases k₁ k₂ k₃ k₄, r.Finishes e own resolved k done k' bases k₁ k₂ k₃ k₄ := by
  obtain ⟨structures, k₁, h₁, h⟩ := run_bind_eq_ok.mp h
  obtain ⟨typedefs, k₂, h₂, h⟩ := run_bind_eq_ok.mp h
  obtain ⟨constants, k₃, h₃, h⟩ := run_bind_eq_ok.mp h
  obtain ⟨⟨⟩, k, hprune, h⟩ := run_bind_eq_ok.mp h
  cases hprune
  obtain ⟨bases, k₄, h₄, h⟩ := run_bind_eq_ok.mp h
  obtain ⟨services, k₅, h₅, h⟩ := run_bind_eq_ok.mp h
  obtain ⟨rfl, rfl⟩ := run_pure_eq_ok.mp h
  exact ⟨bases, k₁, k₂, k₃, k₄, h₁, h₂, h₃, h₄, h₅⟩

theorem mem_mentionedAliases {structures : StructureLists Field} {typedefs : List Typedef}
    {constants : List Constant} {n : String} :
    n ∈ mentionedAliases structures typedefs constants ↔
      (∃ st ∈ structures.all, ∃ f ∈ st.flattenedFields, n ∈ f.mentions) ∨
      (∃ t ∈ typedefs, n ∈ t.type.qualifiers) ∨
      ∃ c ∈ constants, n ∈ c.type.qualifiers ∨ n ∈ c.init.qualifiers := by
  simp only [mentionedAliases, List.mem_append, List.mem_flatMap, or_assoc]

namespace Roster.Finishes

variable {r : Roster} {e : RenderEnv} {own : Place} {resolved : StructureLists ResolvedField}
  {k k' : Linkage} {done : Finished} {found : List (Option ServiceBase)} {k₁ k₂ k₃ k₄ : Linkage}
  (h : r.Finishes e own resolved k done k' found k₁ k₂ k₃ k₄)
include h

/-- Each service has the base that was found for it. -/
theorem bases_eq : done.services.map Service.base = found := by
  -- there is one base, or none, for each service
  have hlength : found.length = r.services.length := by
    have := Ensures.mapM (g := fun _ => ()) (h := fun _ => ())
      (fun s => (fun _ _ _ _ _ => rfl : Ensures (fun _ => True) (e.serviceBase own s) _))
      r.services _ _ _ trivial h.bases
    simpa using congrArg List.length this
  have hbases := Ensures.mapM (RenderEnv.base_service e own done.structures) _ _ _ _ trivial
    h.services
  rw [hbases]
  exact List.map_snd_zip hlength.le

/-- From the written fields on, the linkage grows, and what only expanded fields mention goes
out of use. -/
theorem marked_from {k₀ : Linkage} {U : String → Prop} (hk : k₀.Using U k₁)
    (hU : ∀ st ∈ done.structures.all, ∀ f ∈ st.flattenedFields, ∀ n ∈ f.mentions, U n) :
    k₀.Using (fun n =>
      n ∈ mentionedAliases done.structures done.typedefs done.constants ∨
      (∃ base ∈ found, ∃ b, base = some b ∧ b.qualifier = some n) ∨
      ∃ v ∈ done.services, ∃ f ∈ v.functions, f.Mentions n) k' := by
  have h₂ := Marks.mapM (e.marks_typedef own) r.typedefs k₀ _ _ _ _ hk h.typedefs
  have h₃ := Marks.mapM (e.marks_constant own) r.constants k₀ _ _ _ _ h₂ h.constants
  -- all that is mentioned was in use before, so pruning leaves exactly that
  have hprune : k₀.Using (· ∈ mentionedAliases done.structures done.typedefs done.constants)
      (k₃.prune (mentionedAliases done.structures done.typedefs done.constants)) := by
    refine ⟨h₃.tidy.prune _, h₃.le.trans (Linkage.le_prune _ _), ?_⟩
    intro n
    rw [Linkage.mem_usedNames_prune h₃.tidy, and_iff_right_iff_imp, h₃.used]
    intro hn
    rcases mem_mentionedAliases.mp hn with ⟨st, hst, f, hf, hn⟩ | hn | hn
    · exact .inl (.inl (hU st hst f hf n hn))
    · exact .inl (.inr hn)
    · exact .inr hn
  have h₄ := Marks.mapM (e.marks_serviceBase own) r.services k₀ _ _ _ _ hprune h.bases
  have h₅ := Marks.mapM (e.marks_service own done.structures) _ k₀ _ _ _ _ h₄ h.services
  exact ⟨h₅.tidy, h₅.le, fun n => by rw [h₅.used, or_assoc]⟩

/-- After all stages the aliases in use are those that the output mentions. -/
theorem marked (hk : k.Tidy) : k.Using (fun n =>
    n ∈ mentionedAliases done.structures done.typedefs done.constants ∨
    (∃ base ∈ found, ∃ b, base = some b ∧ b.qualifier = some n) ∨
    ∃ v ∈ done.services, ∃ f ∈ v.functions, f.Mentions n) k' := by
  have h₀ : k.Using (· ∈ k.usedNames) k := ⟨hk, le_refl k, fun _ => Iff.rfl⟩
  have h₁ := e.marks_structures resolved k _ _ _ _ h₀ h.structures
  exact h.marked_from h₁ fun st hst f hf n hn =>
    .inr ⟨st, hst, f, Structure.mem_allFields_of_flattened hf, hn⟩

/-- All homes that fields mention are behind a finished linkage. -/
theorem visit_le (hk : k.Tidy) :
    e.visit k (resolved.all.flatMap fun s => s.allFields.flatMap ResolvedField.homes) ≤ k' := by
  have h₀ : k.Using (· ∈ k.usedNames) k := ⟨hk, le_refl k, fun _ => Iff.rfl⟩
  have h₁ := e.marks_structures resolved k _ _ _ _ h₀ h.structures
  -- the stages behind the fields are followed from their own start
  have hself : k₁.Using (· ∈ k₁.usedNames) k₁ := ⟨h₁.tidy, le_refl k₁, fun _ => Iff.rfl⟩
  have hle : k₁ ≤ k' := (h.marked_from hself fun st hst f hf n hn => (h₁.used n).mpr
    (.inr ⟨st, hst, f, Structure.mem_allFields_of_flattened hf, hn⟩)).le
  obtain ⟨-, hfirst⟩ := Prod.mk.inj (Except.ok.inj h.structures)
  have hvisit := (RenderEnv.Writes.ofStructures (RenderEnv.writes_field e) resolved).linkage k
  exact hvisit.symm.trans hfirst ▸ hle

/-- Fields are written with the aliases that the finished linkage has. -/
theorem structures_eq (hk : k.Tidy) :
    done.structures = resolved.map (ResolvedField.written e.language (e.answer k')) := by
  obtain ⟨hdone, -⟩ := Prod.mk.inj (Except.ok.inj h.structures)
  exact hdone.symm.trans
    ((RenderEnv.Writes.ofStructures (RenderEnv.writes_field e) resolved).result k _
      (RenderEnv.answer_of_visit_le e (h.visit_le hk)))

end Roster.Finishes

/-! ## Finished scopes -/

/-- What a scope has from its roster and from its resolved fields, which are written with the
aliases of its finished linkage. -/
structure Scope.Comes (s : Scope) (o : Options) (d : Document) (l : Library) (k : Linkage)
    (r : Roster) (resolved : StructureLists ResolvedField) : Prop where
  named : Site.roster ⟨o, l, d.bare k⟩ = .ok r
  fields : r.structures.mapM (l.resolveField (r.place d k)) = .ok resolved
  structures : s.structures =
    resolved.map (ResolvedField.written o.language (RenderEnv.answer ⟨o.language, l⟩ s.linkage))
  visited : RenderEnv.visit ⟨o.language, l⟩ k
    (resolved.all.flatMap fun st => st.allFields.flatMap ResolvedField.homes) ≤ s.linkage
  document : s.document = d
  declared : s.declared = r.declared
  enums : s.enums = r.enums
  expansions : s.expansions = r.expansions

theorem Scope.Built.comes_of_passes {s : Scope} {o : Options} {t : Tree} {l : Library}
    {k : Linkage} (h : s.Built o t l k) {r : Roster} {resolved : StructureLists ResolvedField}
    {done : Finished} (hpasses : t.document.Passes o l k r resolved done s) :
    s.Comes o t.document l k r resolved := by
  obtain ⟨found, k₁, k₂, k₃, k₄, hstages⟩ := Roster.finish_eq_ok hpasses.finished
  have hresult := hpasses.result
  refine ⟨hpasses.named, hpasses.fields, ?_, hstages.visit_le h.tidy, ?_, ?_, ?_, ?_⟩
  · rw [← hstages.structures_eq h.tidy, hresult]
  all_goals rw [hresult]

theorem Scope.Built.comes {s : Scope} {o : Options} {t : Tree} {l : Library} {k : Linkage}
    (h : s.Built o t l k) : ∃ r resolved, s.Comes o t.document l k r resolved := by
  obtain ⟨r, resolved, done, hpasses⟩ := Document.scope_eq_ok h.scope
  exact ⟨r, resolved, h.comes_of_passes hpasses⟩

/-- Finished fields have the names of the roster. -/
theorem Scope.Comes.map_structures {s : Scope} {o : Options} {d : Document} {l : Library}
    {k : Linkage} {r : Roster} {resolved : StructureLists ResolvedField}
    (h : s.Comes o d l k r resolved) : s.structures.map Field.toNamedField = r.structures := by
  rw [h.structures, StructureLists.map_map]
  exact (StructureLists.mapM_eq_ok (fun _ _ _ h => (resolveField_eq_ok h).1) h.fields).1

theorem Scope.Comes.mem_structures {s : Scope} {o : Options} {d : Document} {l : Library}
    {k : Linkage} {r : Roster} {resolved : StructureLists ResolvedField}
    (h : s.Comes o d l k r resolved) {st : Structure Field} (hst : st ∈ s.structures.all) :
    st.map Field.toNamedField ∈ r.structures.all := by
  rw [← h.map_structures, StructureLists.all_map]
  exact List.mem_map_of_mem hst

/-- Resolved fields were fields of the roster. -/
theorem Scope.Comes.mem_roster {s : Scope} {o : Options} {d : Document} {l : Library}
    {k : Linkage} {r : Roster} {resolved : StructureLists ResolvedField}
    (h : s.Comes o d l k r resolved) {st : Structure ResolvedField} (hst : st ∈ resolved.all)
    {f : ResolvedField} (hf : f ∈ st.allFields) :
    ∃ named ∈ r.structures.all, f.toNamedField ∈ named.allFields := by
  obtain ⟨hnames, -⟩ := StructureLists.mapM_eq_ok
    (fun _ _ _ h => (resolveField_eq_ok h).1) h.fields
  refine ⟨st.map ResolvedField.toNamedField, ?_, ?_⟩
  · rw [← hnames, StructureLists.all_map]
    exact List.mem_map_of_mem hst
  · rw [Structure.allFields_map]
    exact List.mem_map_of_mem hf

/-! ## Imports of a finished scope -/

/-- The linkage of a scope is tidy, has grown from the one of its includes, and the aliases in
use are those that the scope mentions. -/
theorem Scope.Built.marked {s : Scope} {o : Options} {t : Tree} {l : Library} {k : Linkage}
    (h : s.Built o t l k) : k.Using s.Mentions s.linkage := by
  obtain ⟨r, resolved, done, hpasses⟩ := Document.scope_eq_ok h.scope
  obtain ⟨found, k₁, k₂, k₃, k₄, hstages⟩ := Roster.finish_eq_ok hpasses.finished
  have husing := hstages.marked h.tidy
  refine ⟨husing.tidy, husing.le, ?_⟩
  intro n
  rw [husing.used, ← hstages.bases_eq, mem_mentionedAliases, Scope.Mentions, hpasses.result]
  simp only [Field.mentions, List.mem_append, List.mem_map, exists_exists_and_eq_and, or_assoc]

/-- The includes that a scope started from come first. -/
theorem Scope.Built.take_includes {s : Scope} {o : Options} {t : Tree} {l : Library}
    {k : Linkage} (h : s.Built o t l k) :
    s.linkage.includes.take t.includes.length = k.includes := by
  have hlength : k.includes.length = t.includes.length :=
    h.links.length_includes.trans (Nat.zero_add _)
  obtain ⟨more, hmore⟩ := h.marked.le.2.1
  rw [← hmore, ← hlength, List.take_left]

/-- **Final import usage is exact.** In every scope that a run comes to, an import is used if
and only if its alias stands in the output. -/
theorem import_used_iff (o : Options) (requests : List Request) {file : String} {s : Scope}
    (hs : ((Run.new o).serveAll requests).library.scope? file = some s) {i : Import}
    (hi : i ∈ s.linkage.imports.imports) : i.used = true ↔ s.Mentions i.name := by
  obtain ⟨t, l, k, -, -, hbuilt⟩ := (Run.sound_serveAll o requests).built file s hs
  have husing := hbuilt.marked
  rw [← husing.used, Linkage.usedNames, ImportTable.mem_usedNames]
  constructor
  · intro hused
    exact ⟨i, hi, hused, rfl⟩
  · rintro ⟨j, hj, hused, hname⟩
    rwa [← husing.tidy.distinct.eq_of_name hj hi hname]

set_option maxRecDepth 100000 in
/-- The holder mentions the import of its color. -/
theorem import_used_iff_holder : ∃ s, ∃ i ∈ s.linkage.imports.imports,
    (Sample.library {}).scope? "user.thrift" = some s ∧ i.name = "base" ∧ s.Mentions i.name := by
  have hfound : ((Sample.library {}).scope? "user.thrift").any
      (fun s => s.linkage.imports.imports.any fun i => i.name == "base" && i.used) = true := by
    decide +kernel
  obtain ⟨s, hs, hfound⟩ := (Option.any_eq_true _ _).mp hfound
  simp only [List.any_eq_true, Bool.and_eq_true, beq_iff_eq] at hfound
  obtain ⟨i, hi, hname, hused⟩ := hfound
  exact ⟨s, i, hi, hs, hname, (import_used_iff {} [.build Sample.user] hs hi).mp hused⟩

end IdlScope

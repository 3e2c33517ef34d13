import IdlScope.Proofs.Growth
import IdlScope.Proofs.Spelling

/-!
# Homes — where resolved names come from

Whatever a covered place resolves is at home in the library (`holds_resolveType`,
`holds_resolveValue`). Rendering asks a library for nothing but these homes, so it is the
same in every larger library (`RenderEnv.Writes.run_eq`), and the includes that it appends
lead to files of the library (`Linkage.Covered.visit`).
-/

namespace IdlScope

variable {l m : Library}

/-! ## What is resolved -/

namespace Library

variable {p : Place}

theorem locate_eq_ok {t : IdlType} {owner : String} {d : Located}
    (h : l.locate p t owner = .ok d) :
    ∃ q found, l.declaration? p t.name t.reference DeclKind.isType = some (q, found) ∧
      d.home = q.home ∧ d.name = found.name := by
  rw [locate] at h
  dsimp only at h
  split at h
  · next found hfound =>
    cases h
    obtain ⟨⟨q, d⟩, hq, hfound⟩ := Option.bind_eq_some_iff.mp hfound
    obtain ⟨c, -, hfound⟩ := Option.bind_eq_some_iff.mp hfound
    cases hfound
    exact ⟨q, d, hq, rfl, rfl⟩
  · cases h

theorem enumValue?_eq_some {identifier : String} {v : ValueExpr}
    (h : l.enumValue? p identifier = some v) :
    ∃ name q found, l.declaration? p name none (· == .enum) = some (q, found) ∧
      ∃ e ∈ q.directory.enums, ∃ value ∈ e.values,
        v = .enumValue q.home found.name value.name := by
  rw [enumValue?] at h
  split at h
  · cases h
  · obtain ⟨⟨q, found⟩, hq, h⟩ := Option.bind_eq_some_iff.mp h
    obtain ⟨e, he, h⟩ := Option.bind_eq_some_iff.mp h
    obtain ⟨value, hvalue, h⟩ := Option.bind_eq_some_iff.mp h
    cases h
    exact ⟨_, q, found, hq, e, List.mem_of_find?_eq_some he, value,
      List.mem_of_find?_eq_some hvalue, rfl⟩

/-- An identifier means a truth value, a constant, or a value of an enum. -/
theorem resolveIdentifier_eq_ok {identifier owner : String} {v : ValueExpr}
    (h : l.resolveIdentifier p identifier owner = .ok v) :
    (∃ b, v = .bool b) ∨
    (∃ q found, l.declaration? p identifier none (· == .constant) = some (q, found) ∧
      v = .constant q.home found.name) ∨
    l.enumValue? p identifier = some v := by
  rw [resolveIdentifier] at h
  split at h
  · cases h
    exact .inl ⟨true, rfl⟩
  · split at h
    · cases h
      exact .inl ⟨false, rfl⟩
    · split at h
      · next q found hq =>
        cases h
        exact .inr (.inl ⟨q, found, hq, rfl⟩)
      · split at h
        · next v hv =>
          cases h
          exact .inr (.inr hv)
        · cases h

end Library

/-! ## Homes of what is resolved -/

mutual

theorem homes_resolveWith {P : Home → Prop} {file owner : String}
    {find : IdlType → Except ResolveError TypeExpr}
    (hfind : ∀ t e, find t = .ok e → ∀ h ∈ e.homes, P h) :
    ∀ (t : IdlType) {e : TypeExpr}, resolveWith file owner find t = .ok e → ∀ h ∈ e.homes, P h
  | ⟨_, category, key, value, _, _⟩, e, h => by
    -- a container has the homes of its elements, a named type those of what is found
    cases category with
    | list =>
        obtain ⟨item, hitem, h⟩ := bind_eq_ok.mp h
        cases h
        exact fun home hhome => homes_resolveElement hfind value hitem home hhome
    | set =>
        obtain ⟨item, hitem, h⟩ := bind_eq_ok.mp h
        cases h
        exact fun home hhome => homes_resolveElement hfind value hitem home hhome
    | map =>
        obtain ⟨k, hk, h⟩ := bind_eq_ok.mp h
        obtain ⟨v, hv, h⟩ := bind_eq_ok.mp h
        cases h
        intro home hhome
        rcases List.mem_append.mp hhome with hhome | hhome
        · exact homes_resolveElement hfind key hk home hhome
        · exact homes_resolveElement hfind value hv home hhome
    | enum | struct | union | exception | typedef | service => exact hfind _ e h
    | _ =>
        cases h
        exact fun home hhome => absurd hhome List.not_mem_nil
termination_by structural t => t

theorem homes_resolveElement {P : Home → Prop} {file owner container : String}
    {find : IdlType → Except ResolveError TypeExpr}
    (hfind : ∀ t e, find t = .ok e → ∀ h ∈ e.homes, P h) :
    ∀ (t : Option IdlType) {e : TypeExpr},
      resolveElement file owner find container t = .ok e → ∀ h ∈ e.homes, P h
  | none, _, h => by cases h
  | some t, _, h => homes_resolveWith hfind t h
termination_by structural t => t

end

section Spread

variable {S : Place → Prop} {P : Home → Prop} (hS : ∀ {p q}, S p → l.Reaches p q → S q)
  (hP : ∀ {p}, S p → P p.home) {p : Place} (hp : S p)
include hS hP hp

/-- What a place hands on to the places it reaches, it hands on to all that it locates. -/
theorem spreads_locate {t : IdlType} {owner : String} {d : Located}
    (h : l.locate p t owner = .ok d) : P d.home := by
  obtain ⟨q, found, hq, hhome, -⟩ := Library.locate_eq_ok h
  rw [hhome]
  exact hP (hS hp (Library.reaches_of_declaration? hq).1)

theorem spreads_resolveType {t : IdlType} {owner : String} {e : TypeExpr}
    (h : l.resolveType p t owner = .ok e) : ∀ home ∈ e.homes, P home := by
  refine homes_resolveWith (fun t e h => ?_) t h
  obtain ⟨d, hd, rfl⟩ := map_eq_ok.mp h
  intro home hhome
  rw [List.mem_singleton.mp hhome]
  exact spreads_locate hS hP hp hd

theorem spreads_resolveInSignature {t : IdlType} {owner : String} {e : TypeExpr}
    (h : l.resolveInSignature p t owner = .ok e) : ∀ home ∈ e.homes, P home := by
  refine homes_resolveWith (fun t e h => ?_) t h
  -- in a signature a bare name may also stand for a type of an included file
  split at h
  · next found hfound =>
    cases h
    rw [Library.unqualified?] at hfound
    split at hfound
    · cases hfound
    · obtain ⟨i, hi, hfound⟩ := List.exists_of_findSome?_eq_some hfound
      obtain ⟨q, hq, hfound⟩ := Option.bind_eq_some_iff.mp hfound
      obtain ⟨_, _, hfound⟩ := Option.bind_eq_some_iff.mp hfound
      obtain ⟨d, hd, rfl⟩ := Option.map_eq_some_iff.mp hfound
      intro home hhome
      rw [List.mem_singleton.mp hhome]
      exact spreads_locate hS hP (hS hp (.inr ⟨i.file, hq, .direct hi⟩)) (toOption_eq_some.mp hd)
  · obtain ⟨d, hd, rfl⟩ := map_eq_ok.mp h
    intro home hhome
    rw [List.mem_singleton.mp hhome]
    exact spreads_locate hS hP hp hd

theorem spreads_resolveIdentifier {identifier owner : String} {v : ValueExpr}
    (h : l.resolveIdentifier p identifier owner = .ok v) (t : TypeExpr) :
    ∀ home ∈ v.homes t, P home := by
  have hone : ∀ {q : Place} {home : Home}, S q → home ∈ [q.home] → P home :=
    fun hq hhome => List.mem_singleton.mp hhome ▸ hP hq
  rcases Library.resolveIdentifier_eq_ok h with ⟨b, rfl⟩ | ⟨q, found, hq, rfl⟩ | hv
  · exact fun home hhome => absurd hhome List.not_mem_nil
  · exact fun home hhome => hone (hS hp (Library.reaches_of_declaration? hq).1) hhome
  · obtain ⟨name, q, found, hq, e, -, value, -, rfl⟩ := Library.enumValue?_eq_some hv
    exact fun home hhome => hone (hS hp (Library.reaches_of_declaration? hq).1) hhome

end Spread

mutual

theorem homes_resolveValue {p : Place} {owner : String} {P : Home → Prop}
    (hid : ∀ s v, l.resolveIdentifier p s owner = .ok v → ∀ t, ∀ h ∈ v.homes t, P h) :
    ∀ (v : ConstValue) {e : ValueExpr}, l.resolveValue p owner v = .ok e →
      ∀ t : TypeExpr, (∀ h ∈ t.homes, P h) → ∀ h ∈ e.homes t, P h
  | .int _, e, h, t, _ => by
    cases h
    exact fun home hhome => absurd hhome List.not_mem_nil
  | .double _, e, h, t, _ => by
    cases h
    exact fun home hhome => absurd hhome List.not_mem_nil
  | .literal _, e, h, t, _ => by
    cases h
    exact fun home hhome => absurd hhome List.not_mem_nil
  | .identifier s, e, h, t, _ => hid s e h t
  | .list items, e, h, t, ht => by
    obtain ⟨es, hes, rfl⟩ := map_eq_ok.mp h
    have hitem : ∀ h ∈ t.item.homes, P h := fun h hh => ht h (t.homes_item h hh)
    intro home hhome
    rcases List.mem_append.mp hhome with hhome | hhome
    · exact hitem home hhome
    · exact homes_resolveValues hid items hes t.item hitem home hhome
  | .map entries, e, h, t, ht => by
    obtain ⟨es, hes, rfl⟩ := map_eq_ok.mp h
    have hkey : ∀ h ∈ t.keyAndValue.1.homes, P h :=
      fun h hh => ht h (t.homes_keyAndValue.1 h hh)
    have hvalue : ∀ h ∈ t.keyAndValue.2.homes, P h :=
      fun h hh => ht h (t.homes_keyAndValue.2 h hh)
    intro home hhome
    rcases List.mem_append.mp hhome with hhome | hhome
    · exact hkey home hhome
    · rcases List.mem_append.mp hhome with hhome | hhome
      · exact hvalue home hhome
      · exact homes_resolveEntries hid entries hes t.keyAndValue hkey hvalue home hhome
termination_by structural v => v

theorem homes_resolveValues {p : Place} {owner : String} {P : Home → Prop}
    (hid : ∀ s v, l.resolveIdentifier p s owner = .ok v → ∀ t, ∀ h ∈ v.homes t, P h) :
    ∀ (vs : List ConstValue) {es : List ValueExpr}, l.resolveValues p owner vs = .ok es →
      ∀ t : TypeExpr, (∀ h ∈ t.homes, P h) → ∀ h ∈ ValueExpr.itemHomes t es, P h
  | [], es, h, t, _ => by
    cases h
    exact fun home hhome => absurd hhome List.not_mem_nil
  | v :: vs, es, h, t, ht => by
    obtain ⟨e, he, h⟩ := bind_eq_ok.mp h
    obtain ⟨es, hes, h⟩ := bind_eq_ok.mp h
    cases h
    intro home hhome
    rcases List.mem_append.mp hhome with hhome | hhome
    · exact homes_resolveValue hid v he t ht home hhome
    · exact homes_resolveValues hid vs hes t ht home hhome
termination_by structural vs => vs

theorem homes_resolveEntries {p : Place} {owner : String} {P : Home → Prop}
    (hid : ∀ s v, l.resolveIdentifier p s owner = .ok v → ∀ t, ∀ h ∈ v.homes t, P h) :
    ∀ (vs : List (ConstValue × ConstValue)) {es : List (ValueExpr × ValueExpr)},
      l.resolveEntries p owner vs = .ok es →
      ∀ t : TypeExpr × TypeExpr, (∀ h ∈ t.1.homes, P h) → (∀ h ∈ t.2.homes, P h) →
        ∀ h ∈ ValueExpr.entryHomes t es, P h
  | [], es, h, t, _, _ => by
    cases h
    exact fun home hhome => absurd hhome List.not_mem_nil
  | v :: vs, es, h, t, hk, hv => by
    obtain ⟨e, he, h⟩ := bind_eq_ok.mp h
    obtain ⟨es, hes, h⟩ := bind_eq_ok.mp h
    cases h
    intro home hhome
    rcases List.mem_append.mp hhome with hhome | hhome
    · exact homes_resolveEntry hid v he t hk hv home hhome
    · exact homes_resolveEntries hid vs hes t hk hv home hhome
termination_by structural vs => vs

theorem homes_resolveEntry {p : Place} {owner : String} {P : Home → Prop}
    (hid : ∀ s v, l.resolveIdentifier p s owner = .ok v → ∀ t, ∀ h ∈ v.homes t, P h) :
    ∀ (v : ConstValue × ConstValue) {e : ValueExpr × ValueExpr},
      l.resolveEntry p owner v = .ok e →
      ∀ t : TypeExpr × TypeExpr, (∀ h ∈ t.1.homes, P h) → (∀ h ∈ t.2.homes, P h) →
        ∀ h ∈ ValueExpr.pairHomes t e, P h
  | (k, v), e, h, t, hk, hv => by
    obtain ⟨key, hkey, h⟩ := bind_eq_ok.mp h
    obtain ⟨value, hvalue, h⟩ := bind_eq_ok.mp h
    cases h
    intro home hhome
    rcases List.mem_append.mp hhome with hhome | hhome
    · exact homes_resolveValue hid k hkey t.1 hk home hhome
    · exact homes_resolveValue hid v hvalue t.2 hv home hhome
termination_by structural v => v

end

theorem spreads_resolveValue {S : Place → Prop} {P : Home → Prop}
    (hS : ∀ {p q}, S p → l.Reaches p q → S q) (hP : ∀ {p}, S p → P p.home) {p : Place} (hp : S p)
    {owner : String} {v : ConstValue} {e : ValueExpr} (h : l.resolveValue p owner v = .ok e)
    {t : TypeExpr} (ht : ∀ home ∈ t.homes, P home) : ∀ home ∈ e.homes t, P home :=
  homes_resolveValue (fun _ _ h t => spreads_resolveIdentifier hS hP hp h t) v h t ht

section Holds

variable {p : Place} (hl : l.Closed) (hp : p.Covered l)
include hl hp

theorem holds_resolveType {t : IdlType} {owner : String} {e : TypeExpr}
    (h : l.resolveType p t owner = .ok e) : ∀ home ∈ e.homes, l.Holds home :=
  spreads_resolveType hl.covered_of_reaches Place.Covered.home hp h

theorem holds_resolveInSignature {t : IdlType} {owner : String} {e : TypeExpr}
    (h : l.resolveInSignature p t owner = .ok e) : ∀ home ∈ e.homes, l.Holds home :=
  spreads_resolveInSignature hl.covered_of_reaches Place.Covered.home hp h

theorem holds_resolveValue {owner : String} {v : ConstValue} {e : ValueExpr}
    (h : l.resolveValue p owner v = .ok e) {t : TypeExpr}
    (ht : ∀ home ∈ t.homes, l.Holds home) : ∀ home ∈ e.homes t, l.Holds home :=
  spreads_resolveValue hl.covered_of_reaches Place.Covered.home hp h ht

end Holds

/-! ## Linkages that stay in the library -/

/-- Every include of the linkage leads to a scope of the library. -/
def Linkage.Covered (l : Library) (k : Linkage) : Prop :=
  ∀ i ∈ k.present, l.Knows i.file

namespace Linkage.Covered

variable {k : Linkage} (hk : k.Covered l)
include hk

theorem skip : k.skip.Covered l := by
  rw [Covered]
  rw [present_skip]
  exact hk

theorem append (g : Language) {d : Document} (hd : l.Knows d.filename) (p : Package) :
    (k.append g d p).2.Covered l := by
  intro i hi
  rcases mem_present_append g d p hi with hi | hi
  · exact hk i hi
  · exact hi ▸ hd

theorem qualifierFor (g : Language) {d : Document} (hd : l.Knows d.filename) (p : Package) :
    (k.qualifierFor g d p).2.Covered l := by
  intro i hi
  rcases mem_present_qualifierFor g d p hi with hi | hi
  · exact hk i hi
  · exact hi ▸ hd

theorem visit (g : Language) (homes : List Home) :
    ((RenderEnv.mk g l).visit k homes).Covered l := by
  induction homes generalizing k with
  | nil => exact hk
  | cons h hs ih =>
      rw [RenderEnv.visit_cons]
      refine ih ?_
      unfold RenderEnv.qualifierOf
      cases h with
      | here => exact hk
      | foreign file =>
          dsimp only
          split
          · exact hk
          · next s hs =>
            have hname := Library.filename_of_scope? hs
            refine hk.qualifierFor g ⟨s, ?_⟩ _
            rw [show s.document.filename = file from hname]
            exact hs

end Linkage.Covered

/-- The includes of a linkage that stays in the library make a place of it covered. -/
theorem Place.covered_of_linkage {p : Place} {k : Linkage} (hp : l.Holds p.home)
    (hk : k.Covered l) (hincludes : p.directory.includes = k.includes) : p.Covered l :=
  ⟨hp, fun i hi => hk i (by rwa [Directory.present, hincludes] at hi)⟩

/-! ## Rendering in a larger library -/

namespace RenderEnv

variable {g : Language} (hle : l ≤ m)
include hle

theorem qualifierOf_eq (k : Linkage) {h : Home} (hh : l.Holds h) :
    qualifierOf ⟨g, m⟩ k h = qualifierOf ⟨g, l⟩ k h := by
  cases h with
  | here => rfl
  | foreign file =>
      rw [qualifierOf, qualifierOf]
      dsimp only
      rw [hh.scope?_eq hle]

theorem answer_eq (k : Linkage) {h : Home} (hh : l.Holds h) :
    answer ⟨g, m⟩ k h = answer ⟨g, l⟩ k h := by
  cases h with
  | here => rfl
  | foreign file =>
      rw [answer, answer]
      dsimp only
      rw [hh.scope?_eq hle]

theorem visit_eq (k : Linkage) {homes : List Home} (hh : ∀ h ∈ homes, l.Holds h) :
    visit ⟨g, m⟩ k homes = visit ⟨g, l⟩ k homes := by
  induction homes generalizing k with
  | nil => rfl
  | cons h hs ih =>
      rw [visit_cons, visit_cons, qualifierOf_eq hle k (hh h List.mem_cons_self)]
      exact ih _ fun h hmem => hh h (List.mem_cons_of_mem _ hmem)

/-- A step that writes what is at home in the smaller library does the same in the larger. -/
theorem Writes.run_eq {α : Type} {x y : Link α} {homes : List Home}
    {out : (Home → Option String) → α} (hx : Writes ⟨g, l⟩ x homes out)
    (hy : Writes ⟨g, m⟩ y homes out) (hh : ∀ h ∈ homes, l.Holds h) (k : Linkage) :
    y.run k = x.run k := by
  have hvisit := visit_eq (g := g) hle k hh
  refine Prod.ext ?_ ?_
  · rw [hx.result k _ fun _ _ => rfl, hy.result k]
    intro h hmem
    rw [hvisit, answer_eq hle _ (hh h hmem)]
  · rw [hx.linkage, hy.linkage, hvisit]

end RenderEnv

end IdlScope

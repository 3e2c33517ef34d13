import IdlScope.Proofs.Appending
import IdlScope.Proofs.Inlining

/-!
# Relocation — a file seen from inside and from outside

The fields of an expanded structure are resolved twice: by the file that declares them, when
it was built itself, and by every file that they are expanded in, which sees that file from
outside. What the first calls its own the second calls by the name of the file, and this is
the only difference:

* **`Home.outside`** — what a home of a file is called outside; places, types and values are
  taken outside with it.
* **`Library.declaration?_outside`**, **`resolveType_outside`**, **`resolveValue_outside`** —
  look-ups and resolving go along with it.
* **`expansion_keeps_meaning`** — a field in place of another has the type and the value that
  the file of its structure resolved for it, taken outside.
-/

namespace IdlScope

/-! ## What is called otherwise outside -/

/-- What a home of the file is called by other files. -/
def Home.outside (file : String) : Home → Home
  | .here => .foreign file
  | .foreign other => .foreign other

/-- A place of the file as other files see it. -/
def Place.outside (file : String) (p : Place) : Place :=
  { p with home := p.home.outside file }

@[simp] theorem Place.directory_outside (file : String) (p : Place) :
    (p.outside file).directory = p.directory := rfl

/-- The same question, asked by other files. -/
def Probe.outside (file : String) (probe : Probe) : Probe :=
  { probe with place := probe.place.outside file }

/-- A declaration that the file has found, as other files see it. -/
def Located.outside (file : String) (d : Located) : Located :=
  { d with home := d.home.outside file }

/-- A type of the file as other files see it. -/
def TypeExpr.outside (file : String) : TypeExpr → TypeExpr
  | .base c => .base c
  | .list t => .list (t.outside file)
  | .set t => .set (t.outside file)
  | .map k v => .map (k.outside file) (v.outside file)
  | .declared home name underlying => .declared (home.outside file) name underlying

namespace ValueExpr

mutual

/-- A value of the file as other files see it. -/
def outside (file : String) : ValueExpr → ValueExpr
  | .int v => .int v
  | .double v => .double v
  | .literal s => .literal s
  | .bool b => .bool b
  | .enumValue home enumName valueName => .enumValue (home.outside file) enumName valueName
  | .constant home name => .constant (home.outside file) name
  | .list items => .list (itemsOutside file items)
  | .map entries => .map (entriesOutside file entries)
termination_by structural v => v

/-- The items of a list as other files see them. -/
def itemsOutside (file : String) : List ValueExpr → List ValueExpr
  | [] => []
  | v :: vs => outside file v :: itemsOutside file vs
termination_by structural vs => vs

/-- The entries of a map as other files see them. -/
def entriesOutside (file : String) :
    List (ValueExpr × ValueExpr) → List (ValueExpr × ValueExpr)
  | [] => []
  | e :: es => entryOutside file e :: entriesOutside file es
termination_by structural es => es

/-- An entry of a map as other files see it. -/
def entryOutside (file : String) : ValueExpr × ValueExpr → ValueExpr × ValueExpr
  | (k, v) => (outside file k, outside file v)
termination_by structural e => e

end

end ValueExpr

/-! ## Look-ups -/

namespace Probe

/-- Questions that are asked from outside get the same answers. -/
theorem first?_outside {α : Type} (file : String) (ask : Directory → String → Option α)
    (path : List Probe) : first? ask (path.map (Probe.outside file)) =
      (first? ask path).map fun found => (found.1.outside file, found.2) := by
  induction path with
  | nil => rfl
  | cons probe path ih =>
      have hask : ask (probe.outside file).place.directory (probe.outside file).key =
          ask probe.place.directory probe.key := rfl
      rw [List.map_cons, first?, first?, ih, hask]
      cases ask probe.place.directory probe.key <;> rfl

end Probe

namespace Library

variable {l : Library} {p : Place} (file : String)

/-- Files of the library are called the same everywhere. -/
theorem outside_of_place? {other : String} {q : Place} (h : l.place? other = some q) :
    q.outside file = q := by
  obtain ⟨s, -, rfl⟩ := Option.map_eq_some_iff.mp h
  rfl

theorem outside_of_mem_reach {r : Reached} (h : r ∈ l.reach p) : r.place.outside file = r.place :=
  outside_of_place? file (leads_of_mem_layers h).1

theorem pathOf_outside (p : Place) (qualifier : Option String) (bare : String) :
    l.pathOf (p.outside file) qualifier bare =
      (l.pathOf p qualifier bare).map (Probe.outside file) := by
  have hreached : ∀ {rs : List Reached}, (∀ r ∈ rs, r ∈ l.reach p) →
      (rs.map fun r => (⟨r.place, bare⟩ : Probe)) =
        (rs.map fun r => (⟨r.place, bare⟩ : Probe)).map (Probe.outside file) := by
    intro rs hrs
    rw [List.map_map]
    refine List.map_congr_left fun r hr => ?_
    rw [Function.comp, Probe.outside, outside_of_mem_reach file (hrs r hr)]
  cases qualifier with
  | none => exact congrArg (⟨p.outside file, bare⟩ :: ·) (hreached fun _ hr => hr)
  | some q =>
      rw [pathOf, pathOf, List.map_append]
      refine congrArg₂ (· ++ ·) ?_ ?_
      · exact hreached fun _ hr => (List.mem_filter.mp hr).1
      · rw [Place.directory_outside]
        split <;> rfl

theorem declarationPath_outside (p : Place) (name : String) (reference : Option Reference) :
    l.declarationPath (p.outside file) name reference =
      (l.declarationPath p name reference).map (Probe.outside file) := by
  rw [declarationPath, declarationPath]
  dsimp only
  rw [List.map_append, pathOf_outside]
  congr 1
  cases reference with
  | none => rfl
  | some r =>
      show (((l.referred? p r).bind fun q => some (⟨q, _⟩ : Probe)).toList : List Probe) = _
      cases hq : l.referred? p r with
      | none => simp [hq]
      | some q =>
          obtain ⟨i, -, hplace⟩ := Option.bind_eq_some_iff.mp hq
          simp [hq, Probe.outside, outside_of_place? file hplace]

theorem declaration?_outside (p : Place) (name : String) (reference : Option Reference)
    (accept : DeclKind → Bool) :
    l.declaration? (p.outside file) name reference accept =
      (l.declaration? p name reference accept).map fun found =>
        (found.1.outside file, found.2) := by
  rw [declaration?, declarationPath_outside, Probe.first?_outside]
  rfl

/-- The category behind a typedef is the same from outside. -/
theorem behindTypedef_outside (n : Nat) (p : Place) (name : String) :
    l.behindTypedef n (p.outside file) name = l.behindTypedef n p name := by
  induction n generalizing p name with
  | zero => rfl
  | succ n ih =>
      rw [behindTypedef, behindTypedef]
      refine Option.bind_congr fun t _ => ?_
      dsimp only
      rw [declaration?_outside]
      split
      · rfl
      · cases l.declaration? p t.target.name t.target.reference DeclKind.isType with
        | none => rfl
        | some found =>
            simp only [Option.map_some, Option.bind_eq_bind, Option.bind_some, ih]

theorem underlying?_outside (p : Place) (t : IdlType) (found : Declared) :
    l.underlying? (p.outside file) t found = l.underlying? p t found := by
  rw [underlying?, underlying?]
  split
  · rfl
  · rfl
  · exact behindTypedef_outside file _ p _

/-- What is located from inside is located from outside, whoever asks for it. -/
theorem locate_outside {t : IdlType} {owner : String} {d : Located}
    (h : l.locate p t owner = .ok d) (owner' : String) :
    l.locate (p.outside file) t owner' = .ok (d.outside file) := by
  rw [locate] at h ⊢
  rw [declaration?_outside]
  cases hfound : l.declaration? p t.name t.reference DeclKind.isType with
  | none =>
      rw [hfound] at h
      cases h
  | some found =>
      simp only [hfound, Option.map_some, Option.bind_eq_bind, Option.bind_some,
        underlying?_outside] at h ⊢
      cases hbehind : l.underlying? found.1 t found.2 with
      | none =>
          rw [hbehind] at h
          cases h
      | some c =>
          rw [hbehind] at h
          cases h
          rfl

end Library

/-! ## Types and values -/

mutual

/-- If names are found alike from inside and from outside, so are types. -/
theorem resolveWith_outside {file file₁ file₂ owner₁ owner₂ : String}
    {find₁ find₂ : IdlType → Except ResolveError TypeExpr}
    (hfind : ∀ t e, find₁ t = .ok e → find₂ t = .ok (e.outside file)) :
    ∀ (t : IdlType) {e : TypeExpr}, resolveWith file₁ owner₁ find₁ t = .ok e →
      resolveWith file₂ owner₂ find₂ t = .ok (e.outside file)
  | ⟨_, category, key, value, _, _⟩, e, h => by
    cases category with
    | list =>
        obtain ⟨item, hitem, h⟩ := bind_eq_ok.mp h
        cases h
        exact bind_eq_ok.mpr ⟨_, resolveElement_outside hfind value hitem, rfl⟩
    | set =>
        obtain ⟨item, hitem, h⟩ := bind_eq_ok.mp h
        cases h
        exact bind_eq_ok.mpr ⟨_, resolveElement_outside hfind value hitem, rfl⟩
    | map =>
        obtain ⟨k, hk, h⟩ := bind_eq_ok.mp h
        obtain ⟨v, hv, h⟩ := bind_eq_ok.mp h
        cases h
        exact bind_eq_ok.mpr ⟨_, resolveElement_outside hfind key hk,
          bind_eq_ok.mpr ⟨_, resolveElement_outside hfind value hv, rfl⟩⟩
    | enum | struct | union | exception | typedef | service => exact hfind _ e h
    | _ =>
        cases h
        rfl
termination_by structural t => t

theorem resolveElement_outside {file file₁ file₂ owner₁ owner₂ container : String}
    {find₁ find₂ : IdlType → Except ResolveError TypeExpr}
    (hfind : ∀ t e, find₁ t = .ok e → find₂ t = .ok (e.outside file)) :
    ∀ (t : Option IdlType) {e : TypeExpr}, resolveElement file₁ owner₁ find₁ container t = .ok e →
      resolveElement file₂ owner₂ find₂ container t = .ok (e.outside file)
  | none, _, h => by cases h
  | some t, _, h => resolveWith_outside hfind t h
termination_by structural t => t

end

namespace Library

variable {l : Library} {p : Place} (file : String)

theorem resolveType_outside {t : IdlType} {owner : String} {e : TypeExpr}
    (h : l.resolveType p t owner = .ok e) (owner' : String) :
    l.resolveType (p.outside file) t owner' = .ok (e.outside file) := by
  refine resolveWith_outside (fun t e he => ?_) t h
  obtain ⟨d, hd, rfl⟩ := map_eq_ok.mp he
  exact map_eq_ok.mpr ⟨_, locate_outside file hd owner', rfl⟩

theorem enumValue?_outside (p : Place) (identifier : String) :
    l.enumValue? (p.outside file) identifier =
      (l.enumValue? p identifier).map (ValueExpr.outside file) := by
  rw [enumValue?, enumValue?]
  split
  · rfl
  · next enumName member _ =>
    rw [declaration?_outside]
    cases l.declaration? p enumName none (· == .enum) with
    | none => rfl
    | some found =>
        -- the enum and its value stand in the same file, whatever that is called
        simp only [Option.map_some, Option.bind_eq_bind, Option.bind_some, Option.map_bind,
          Place.directory_outside]
        refine Option.bind_congr fun e _ => ?_
        rw [Function.comp, Option.map_bind]
        rfl

theorem resolveIdentifier_outside {identifier owner : String} {v : ValueExpr}
    (h : l.resolveIdentifier p identifier owner = .ok v) (owner' : String) :
    l.resolveIdentifier (p.outside file) identifier owner' = .ok (v.outside file) := by
  rw [resolveIdentifier] at h ⊢
  rw [declaration?_outside, enumValue?_outside]
  split
  · next htrue =>
    rw [if_pos htrue] at h
    cases h
    rfl
  · next htrue =>
    rw [if_neg htrue] at h
    split
    · next hfalse =>
      rw [if_pos hfalse] at h
      cases h
      rfl
    · next hfalse =>
      rw [if_neg hfalse] at h
      cases hconstant : l.declaration? p identifier none (· == .constant) with
      | some found =>
          rw [hconstant] at h
          cases h
          rfl
      | none =>
          rw [hconstant] at h
          cases hvalue : l.enumValue? p identifier with
          | some e =>
              rw [hvalue] at h
              cases h
              rfl
          | none =>
              rw [hvalue] at h
              cases h

section Values

variable {owner₁ owner₂ : String} {p₁ p₂ : Place}

mutual

/-- If identifiers mean the same from inside and from outside, so do values. -/
theorem resolveValue_outside (hid : ∀ s v, l.resolveIdentifier p₁ s owner₁ = .ok v →
      l.resolveIdentifier p₂ s owner₂ = .ok (v.outside file)) :
    ∀ (c : ConstValue) {v : ValueExpr}, l.resolveValue p₁ owner₁ c = .ok v →
      l.resolveValue p₂ owner₂ c = .ok (v.outside file)
  | .int _, _, h => by cases h; rfl
  | .double _, _, h => by cases h; rfl
  | .literal _, _, h => by cases h; rfl
  | .identifier s, v, h => hid s v h
  | .list items, _, h => by
    obtain ⟨vs, hvs, rfl⟩ := map_eq_ok.mp h
    exact map_eq_ok.mpr ⟨_, resolveValues_outside hid items hvs, rfl⟩
  | .map entries, _, h => by
    obtain ⟨es, hes, rfl⟩ := map_eq_ok.mp h
    exact map_eq_ok.mpr ⟨_, resolveEntries_outside hid entries hes, rfl⟩
termination_by structural c => c

theorem resolveValues_outside (hid : ∀ s v, l.resolveIdentifier p₁ s owner₁ = .ok v →
      l.resolveIdentifier p₂ s owner₂ = .ok (v.outside file)) :
    ∀ (cs : List ConstValue) {vs : List ValueExpr}, l.resolveValues p₁ owner₁ cs = .ok vs →
      l.resolveValues p₂ owner₂ cs = .ok (ValueExpr.itemsOutside file vs)
  | [], _, h => by cases h; rfl
  | c :: cs, _, h => by
    obtain ⟨v, hv, h⟩ := bind_eq_ok.mp h
    obtain ⟨vs, hvs, h⟩ := bind_eq_ok.mp h
    cases h
    exact bind_eq_ok.mpr ⟨_, resolveValue_outside hid c hv,
      bind_eq_ok.mpr ⟨_, resolveValues_outside hid cs hvs, rfl⟩⟩
termination_by structural cs => cs

theorem resolveEntries_outside (hid : ∀ s v, l.resolveIdentifier p₁ s owner₁ = .ok v →
      l.resolveIdentifier p₂ s owner₂ = .ok (v.outside file)) :
    ∀ (cs : List (ConstValue × ConstValue)) {es : List (ValueExpr × ValueExpr)},
      l.resolveEntries p₁ owner₁ cs = .ok es →
      l.resolveEntries p₂ owner₂ cs = .ok (ValueExpr.entriesOutside file es)
  | [], _, h => by cases h; rfl
  | c :: cs, _, h => by
    obtain ⟨e, he, h⟩ := bind_eq_ok.mp h
    obtain ⟨es, hes, h⟩ := bind_eq_ok.mp h
    cases h
    exact bind_eq_ok.mpr ⟨_, resolveEntry_outside hid c he,
      bind_eq_ok.mpr ⟨_, resolveEntries_outside hid cs hes, rfl⟩⟩
termination_by structural cs => cs

theorem resolveEntry_outside (hid : ∀ s v, l.resolveIdentifier p₁ s owner₁ = .ok v →
      l.resolveIdentifier p₂ s owner₂ = .ok (v.outside file)) :
    ∀ (c : ConstValue × ConstValue) {e : ValueExpr × ValueExpr},
      l.resolveEntry p₁ owner₁ c = .ok e →
      l.resolveEntry p₂ owner₂ c = .ok (ValueExpr.entryOutside file e)
  | (k, v), _, h => by
    obtain ⟨key, hkey, h⟩ := bind_eq_ok.mp h
    obtain ⟨value, hvalue, h⟩ := bind_eq_ok.mp h
    cases h
    exact bind_eq_ok.mpr ⟨_, resolveValue_outside hid k hkey,
      bind_eq_ok.mpr ⟨_, resolveValue_outside hid v hvalue, rfl⟩⟩
termination_by structural c => c

end

end Values

end Library

/-! ## Fields of finished scopes -/

/-- The field was resolved to `r`, and its texts are those of `r` with the qualifiers of the
linkage. -/
structure Field.ResolvesTo (f : Field) (g : Language) (l : Library) (k : Linkage) (own : Place)
    (structureName : String) (r : ResolvedField) : Prop where
  resolved : l.resolveField own structureName f.toNamedField = .ok r
  written : ∃ q, f = r.written g q ∧ ∀ home ∈ r.homes, k.Qualifies g l home (q home)

/-- A field that was declared elsewhere resolves to what it resolved to at home, taken
outside. -/
theorem resolveField_outside {l : Library} {file : String} {own home : Place}
    {name name' : String} {f f' : NamedField} {r r' : ResolvedField}
    (h : l.resolveField own name f = .ok r) (h' : l.resolveField home name' f' = .ok r')
    (hplace : l.declaringPlace own f = (l.declaringPlace home f').outside file)
    (htype : f.decl.type = f'.decl.type) (hinitial : f.decl.initial = f'.decl.initial) :
    r.typeExpr = r'.typeExpr.outside file ∧
      r.valueExpr = r'.valueExpr.map (ValueExpr.outside file) := by
  obtain ⟨-, ht, hv⟩ := resolveField_eq_ok h
  obtain ⟨-, ht', hv'⟩ := resolveField_eq_ok h'
  rw [hplace, htype] at ht
  rw [hplace, hinitial] at hv
  refine ⟨Except.ok.inj (ht.symm.trans (Library.resolveType_outside file ht' _)), ?_⟩
  rcases optionMapM_eq_ok.mp hv' with ⟨hnone, hv'⟩ | ⟨c, v, hsome, hv', hc⟩
  · rw [hnone, Option.mapM_none, pure_eq_ok] at hv
    rw [hv', ← hv]
    rfl
  · rw [hsome, Option.mapM_some] at hv
    obtain ⟨w, hw, hv⟩ := map_eq_ok.mp hv
    have hwv : w = v.outside file := Except.ok.inj (hw.symm.trans
      (Library.resolveValue_outside file
        (fun _ _ hid => Library.resolveIdentifier_outside file hid _) c hc))
    rw [hv', ← hv, hwv]
    rfl

/-- Finished structures are laid out as their roster was. -/
theorem Scope.Comes.lays {s : Scope} {o : Options} {d : Document} {l : Library} {k : Linkage}
    {r : Roster} {resolved : StructureLists ResolvedField} (h : s.Comes o d l k r resolved)
    {st : Structure Field} (hst : st ∈ s.structures.all) :
    Site.Lays ⟨o, l, d.bare k⟩ (st.map Field.toNamedField) :=
  (Site.sound_roster _ h.named).structures _ (h.mem_structures hst)

namespace Scope.Built

variable {s : Scope} {o : Options} {t : Tree} {l m : Library} {k : Linkage}

/-- A structure that is not made up is a declaration of the file. -/
theorem mem_structLikes (h : s.Built o t m k) {st : Structure Field} (hst : st ∈ s.structures.all)
    (hmade : st.madeUp = false) : st.decl ∈ s.document.structLikes := by
  obtain ⟨roster, resolved, hcomes⟩ := h.comes
  rw [hcomes.document]
  exact (hcomes.lays hst).declared hmade

variable (h : s.Built o t m k) (hle : m ≤ l) {st : Structure Field} (hst : st ∈ s.structures.all)
include h hle hst

theorem resolvesTo {f : Field} (hf : f ∈ st.allFields) :
    ∃ r, f.ResolvesTo o.language l s.linkage (s.unwritten t.includes.length) st.source r := by
  obtain ⟨roster, resolved, hcomes⟩ := h.comes
  have hown := h.unwritten_eq.trans (hcomes.within_eq k.includes)
  rw [hcomes.structures, StructureLists.all_map] at hst
  obtain ⟨st, hmem, rfl⟩ := List.mem_map.mp hst
  rw [Structure.allFields_map] at hf
  obtain ⟨r, hr, rfl⟩ := List.mem_map.mp hf
  obtain ⟨-, hresolved⟩ := StructureLists.mapM_eq_ok
    (fun _ _ _ h => (resolveField_eq_ok h).1) hcomes.fields
  refine ⟨r, ?_, _, rfl, fun home hhome =>
    (hcomes.qualifies h.closed h.covered hmem hr home hhome).mono hle⟩
  rw [hown]
  exact (resolveField_eq hle h.closed (roster.covered_place t.document h.covered) _
    (hcomes.holds_origin h.closed h.covered hmem hr)).trans (hresolved st hmem r hr)

/-- The slots of a structure are the planned ones, one for each field that it declares. -/
theorem plans :
    (∀ slot ∈ st.slots, slot.field.decl.Plans l (s.bare t.includes.length)
      (slot.map Field.view)) ∧
    ∀ f ∈ st.decl.fields, ∃ slot ∈ st.slots, slot.field.decl = f := by
  obtain ⟨roster, resolved, hcomes⟩ := h.comes
  have hlays := hcomes.lays hst
  have hview : ∀ slot : Slot Field,
      (slot.map Field.toNamedField).map NamedField.view = slot.map Field.view :=
    fun slot => Slot.map_map _ _ slot
  constructor
  · intro slot hslot
    obtain ⟨f, -, hplans⟩ := hlays.planned (slot.map Field.toNamedField) (by
      rw [Structure.slots_map]
      exact List.mem_map_of_mem hslot)
    rw [hview] at hplans
    have hdecl : slot.field.decl = f := congrArg Prod.fst hplans.field
    rw [h.bare_eq, hdecl]
    exact hplans.mono hle h.closed (t.document.covered_bare h.covered)
  · intro f hf
    obtain ⟨named, hnamed, hplans⟩ := hlays.complete f hf
    rw [Structure.slots_map] at hnamed
    obtain ⟨slot, hslot, rfl⟩ := List.mem_map.mp hnamed
    rw [hview] at hplans
    exact ⟨slot, hslot, congrArg Prod.fst hplans.field⟩

/-- A field in place of another is a field of the structure that the other one expands to. -/
theorem exists_child {slot : Slot Field} (hslot : slot ∈ st.slots) {f : Field}
    (hf : f ∈ slot.children) : ∃ q target, ∃ child ∈ target.fields,
      slot.field.decl.ExpandsTo l (s.bare t.includes.length) q target ∧
        f.view = slot.field.decl.inPlaceOf q.home child := by
  have hplans := (h.plans hle hst).1 slot hslot
  have hexpanded : (slot.map Field.view).isExpanded = true := by
    rw [Slot.isExpanded_map, Slot.isExpanded]
    cases hslot : slot.expanded with
    | some _ => rfl
    | none =>
        rw [Slot.children, hslot] at hf
        exact absurd hf List.not_mem_nil
  obtain ⟨q, target, hexpands⟩ := hplans.isExpanded_iff.mp hexpanded
  have hview : f.view ∈ (slot.map Field.view).children := by
    rw [Slot.children_map]
    exact List.mem_map_of_mem hf
  rw [(hplans.children_eq hexpands).1] at hview
  obtain ⟨child, hchild, hview⟩ := List.mem_map.mp hview
  exact ⟨q, target, child, hchild, hexpands, hview.symm⟩

end Scope.Built

namespace Library

variable {l : Library} {other : String} {u : Scope}

/-- A structure that was found in another file is one of its declarations. -/
theorem exists_scope_of_structureOf? {p q : Place} {t : IdlType} {st : StructDecl}
    (h : l.structureOf? p t = some (q, st)) (hp : p.home = .here) (hq : q.home = .foreign other) :
    ∃ u, l.scope? other = some u ∧ st ∈ u.document.structLikes := by
  obtain ⟨probe, -, rfl, hst⟩ := mem_of_first? h
  rcases reaches_of_structureOf? h with hown | ⟨name, hplace, -⟩
  · rw [hown, hp] at hq
    cases hq
  · obtain ⟨u, hu, hplace⟩ := Option.map_eq_some_iff.mp hplace
    rw [← hplace] at hq hst
    exact ⟨u, Home.foreign.inj hq ▸ hu, List.mem_of_find?_eq_some hst⟩

/-- If nothing was appended to its includes, a file looks the same from outside as it did to its
own fields. -/
theorem declaringPlace_outside (hu : l.scope? other = some u) {count : Nat}
    (hcount : u.linkage.includes.length = count) {f f' : NamedField} {origin : Origin}
    (horigin : f.origin = some origin) (hother : origin.home = .foreign other)
    (hown : f'.origin = none) (own : Place) :
    l.declaringPlace own f = (l.declaringPlace (u.unwritten count) f').outside other := by
  have hplace : l.place? other = some ⟨.foreign other, u.directory⟩ := by
    rw [place?, hu]
    rfl
  rw [declaringPlace, declaringPlace, horigin, hown]
  dsimp only
  rw [hother, placeOf, hplace, Option.getD_some, Scope.unwritten, List.take_of_length_le hcount.le]
  rfl

end Library

/-- **Expansion keeps the meaning of types and defaults.** In every scope that a run comes to,
a field in place of another is a field of the structure that the other one expands to. If that
structure is of another file, whose structures have different names and to whose includes
nothing was appended, and is listed there, then the field has the type and the value that the
other file resolved for it, with the home of the other file called by its name. -/
theorem expansion_keeps_meaning (o : Options) (requests : List Request) {file : String}
    {s : Scope} (hs : ((Run.new o).serveAll requests).library.scope? file = some s) :
    ∃ t : Tree, t.Among (requests.flatMap Request.trees) ∧ s.document = t.document ∧
      let l := ((Run.new o).serveAll requests).library
      ∀ st ∈ s.structures.all, ∀ slot ∈ st.slots, ∀ f ∈ slot.children,
        ∃ origin q target, f.origin = some origin ∧ origin.home = q.home ∧
          origin.child ∈ target.fields ∧
          slot.field.decl.ExpandsTo l (s.bare t.includes.length) q target ∧
          ∀ other, origin.home = .foreign other → ∃ u, ∃ t' : Tree,
            l.scope? other = some u ∧ t'.Among (requests.flatMap Request.trees) ∧
            u.document = t'.document ∧ target ∈ u.document.structLikes ∧
            ((u.document.structLikes.map StructDecl.name).Nodup →
              u.linkage.includes.length = t'.includes.length →
              ∀ st' ∈ u.structures.all, st'.madeUp = false → st'.source = target.name →
                (∃ slot' ∈ st'.slots, slot'.field.decl = origin.child) ∧
                ∀ slot' ∈ st'.slots, slot'.field.decl = origin.child → ∃ r r',
                  f.ResolvesTo o.language l s.linkage (s.unwritten t.includes.length) st.source
                    r ∧
                  slot'.field.ResolvesTo o.language l u.linkage (u.unwritten t'.includes.length)
                    st'.source r' ∧
                  r.typeExpr = r'.typeExpr.outside other ∧
                  r.valueExpr = r'.valueExpr.map (ValueExpr.outside other)) := by
  have hlibrary := Run.sound_serveAll o requests
  obtain ⟨t, m, k, ht, hle, hbuilt⟩ := hlibrary.built file s hs
  refine ⟨t, ht, Document.document_of_scope hbuilt.scope, ?_⟩
  intro l st hst slot hslot f hf
  obtain ⟨q, target, child, hchild, hexpands, hview⟩ := hbuilt.exists_child hle hst hslot hf
  have hdecl : f.decl = { child with id := child.id + 1000 * slot.field.decl.id } :=
    congrArg Prod.fst hview
  have horigin : f.origin = some ⟨child, slot.field.decl.name, q.home⟩ := congrArg Prod.snd hview
  refine ⟨_, q, target, horigin, rfl, hchild, hexpands, fun other hother => ?_⟩
  have hall : f ∈ st.allFields :=
    List.mem_flatMap.mpr ⟨slot, hslot, List.mem_cons_of_mem _ hf⟩
  obtain ⟨r, hr⟩ := hbuilt.resolvesTo hle hst hall
  obtain ⟨u, hu, hdeclared⟩ := Library.exists_scope_of_structureOf? hexpands.found rfl hother
  obtain ⟨t', m', k', ht', hle', hbuilt'⟩ := hlibrary.built other u hu
  refine ⟨u, t', hu, ht', Document.document_of_scope hbuilt'.scope, hdeclared, ?_⟩
  intro hnames hincludes st' hst' hmade hsource
  have htarget : st'.decl = target :=
    List.inj_on_of_nodup_map hnames (hbuilt'.mem_structLikes hst' hmade) hdeclared hsource
  obtain ⟨hplans, hcomplete⟩ := hbuilt'.plans hle' hst'
  refine ⟨hcomplete child (htarget ▸ hchild), ?_⟩
  intro slot' hslot' hdecl'
  obtain ⟨r', hr'⟩ := hbuilt'.resolvesTo hle' hst'
    (List.mem_flatMap.mpr ⟨slot', hslot', List.mem_cons_self⟩)
  have hown : slot'.field.origin = none := congrArg Prod.snd (hplans slot' hslot').field
  refine ⟨r, r', hr, hr', resolveField_outside hr.resolved hr'.resolved ?_ ?_ ?_⟩
  · exact Library.declaringPlace_outside hu hincludes horigin hother hown _
  · rw [hdecl, hdecl']
  · rw [hdecl, hdecl']

namespace Sample

/-- A part of a color and of a shade from another file; fields that refer to it expand. -/
def parts : Tree where
  document := { Document.empty "parts.thrift" with
    enums := [⟨"Color", [⟨"RED", 1, []⟩], []⟩]
    structs := [⟨"struct", "Part",
      [⟨1, "color", .default, .named "Color" .enum, some (.identifier "Color.RED"), []⟩,
        ⟨2, "shades", .default, ⟨"list", .list, none, some (.named "Shade" .enum), none, []⟩, none,
          []⟩], [], some true⟩] }
  includes := [⟨"shade.thrift", true,
    ⟨{ Document.empty "shade.thrift" with enums := [⟨"Shade", [], []⟩] }, []⟩⟩]

/-- A machine of one part. -/
def machine : Tree where
  document := { Document.empty "machine.thrift" with
    structs := [⟨"struct", "Machine",
      [⟨1, "part", .default, .named "parts.Part" .struct, none, []⟩], [], none⟩] }
  includes := [⟨"parts.thrift", true, parts⟩]

/-- Of the three trees of the machine, the one of this file is the tree of the parts. -/
theorem eq_parts {t : Tree} (h : t.Among [machine]) (hfile : t.filename = "parts.thrift") :
    t = parts := by
  obtain ⟨root, hroot, ht⟩ := h
  obtain rfl := List.mem_singleton.mp hroot
  rcases Tree.within_iff.mp ht with rfl | ⟨i, hi, ht⟩
  · exact absurd hfile (by decide)
  · obtain rfl := List.mem_singleton.mp hi
    rcases Tree.within_iff.mp ht with rfl | ⟨i, hi, ht⟩
    · rfl
    · obtain rfl := List.mem_singleton.mp hi
      rcases Tree.within_iff.mp ht with rfl | ⟨i, hi, -⟩
      · exact absurd hfile (by decide)
      · exact absurd hi List.not_mem_nil

/-- The library of a run that has built the machine. -/
def assembled : Library := ((Run.new {}).serveAll [.build machine]).library

end Sample

set_option maxRecDepth 100000 in
/-- The color of the machine is the one of its part, which calls it its own. -/
theorem expansion_keeps_meaning_color : ∃ s u, ∃ f f' : Field,
    Sample.assembled.scope? "machine.thrift" = some s ∧
      Sample.assembled.scope? "parts.thrift" = some u ∧
      f.type.text = "parts.Color" ∧ f.value.text = "parts.Color_RED" ∧
      f'.type.text = "Color" ∧ f'.value.text = "Color_RED" ∧
      ∃ own home name name' r r',
        f.ResolvesTo .go Sample.assembled s.linkage own name r ∧
        f'.ResolvesTo .go Sample.assembled u.linkage home name' r' ∧
        r.typeExpr = r'.typeExpr.outside "parts.thrift" ∧
        r.valueExpr = r'.valueExpr.map (ValueExpr.outside "parts.thrift") := by
  have hfound : (Sample.assembled.scope? "machine.thrift").any (fun s =>
      s.structures.all.any fun st => st.slots.any fun slot => slot.children.any fun f =>
        f.type.text == "parts.Color" && f.value.text == "parts.Color_RED" &&
          f.origin.any fun origin =>
            origin.home == .foreign "parts.thrift" && origin.child.name == "color") = true := by
    decide +kernel
  have hhome : (Sample.assembled.scope? "parts.thrift").any (fun u =>
      u.linkage.includes.length == 1 && (u.document.structLikes.map StructDecl.name == ["Part"]) &&
        u.structures.all.any fun st => !st.madeUp && st.source == "Part" &&
          st.slots.all fun slot => slot.field.decl.name != "color" ||
            slot.field.type.text == "Color" && slot.field.value.text == "Color_RED") = true := by
    decide +kernel
  obtain ⟨s, hs, hfound⟩ := (Option.any_eq_true _ _).mp hfound
  obtain ⟨u, hu, hhome⟩ := (Option.any_eq_true _ _).mp hhome
  simp only [List.any_eq_true, Option.any_eq_true, Bool.and_eq_true, beq_iff_eq] at hfound
  obtain ⟨st, hst, slot, hslot, f, hf, ⟨htype, hvalue⟩, origin, horigin, hother, hname⟩ := hfound
  simp only [List.any_eq_true, List.all_eq_true, Bool.and_eq_true, Bool.or_eq_true,
    Bool.not_eq_true', beq_iff_eq, bne_iff_ne] at hhome
  obtain ⟨⟨hlength, hnames⟩, st', hst', ⟨hmade, hsource⟩, htexts⟩ := hhome
  obtain ⟨t, -, -, hexpanded⟩ := expansion_keeps_meaning {} [.build Sample.machine] hs
  obtain ⟨origin', q, target, horigin', -, -, -, hkept⟩ := hexpanded st hst slot hslot f hf
  obtain rfl : origin' = origin := Option.some.inj (horigin'.symm.trans horigin)
  obtain ⟨u', t', hu', hamong, hdocument, htarget, hkept⟩ := hkept _ hother
  obtain rfl : u' = u := Option.some.inj (hu'.symm.trans hu)
  have ht' : t' = Sample.parts := Sample.eq_parts hamong
    ((congrArg Document.filename hdocument).symm.trans (Library.filename_of_scope? hu))
  have hpart : target.name = "Part" := by
    have := List.mem_map_of_mem (f := StructDecl.name) htarget
    rwa [hnames, List.mem_singleton] at this
  obtain ⟨⟨slot', hslot', hdecl⟩, hsame⟩ := hkept (hnames ▸ List.nodup_singleton _)
    (hlength.trans (ht' ▸ rfl)) st' hst' hmade (hsource.trans hpart.symm)
  obtain ⟨r, r', hr, hr', hmeaning⟩ := hsame slot' hslot' hdecl
  obtain ⟨htype', hvalue'⟩ :=
    (htexts slot' hslot').resolve_left fun h => h (hdecl ▸ hname)
  exact ⟨s, u', f, slot'.field, hs, hu', htype, hvalue, htype', hvalue', _, _, _, _, r, r', hr, hr',
    hmeaning⟩

end IdlScope

import IdlScope.Proofs.Usage

/-!
# Texts — what stands in the types and values of a finished field

Fields are resolved first and written afterwards, while every written name may still add an
import. When the scope is finished, the text of a field is what its own type and value say
under the import table of that time:

* **`Place.Named`** — no name that a place declares is empty, so no text is.
* **`Linkage.Qualifies`** — the qualifier of a home, read off a finished import table.
* **`Field.Settled`** — the texts of a field, given what its type and its value resolve to.
* **`fields_settled`** — every field of every scope that a run comes to is settled.
-/

namespace IdlScope

/-! ## No text is empty -/

section Nonempty

variable (g : Language) (q : Home → Option String)

theorem qualify_ne_empty (qualifier : Option String) {name : String} (h : name ≠ "") :
    qualify qualifier name ≠ "" := by
  cases qualifier <;> simp [qualify, h]

theorem baseType_ne_empty (c : Category) : g.baseType c ≠ "" := by
  cases g <;> cases c <;> decide

theorem declaredType_ne_empty (qualifier : Option String) {name : String} (h : name ≠ "")
    (c : Category) : g.declaredType qualifier name c ≠ "" := by
  have hname := qualify_ne_empty qualifier h
  cases g with
  | go =>
      show (if c.isStructLike then "*" ++ qualify qualifier name else qualify qualifier name) ≠ ""
      split
      · simp
      · exact hname
  | typescript => exact hname
  | openApi =>
      cases qualifier with
      | none =>
          show "#/components/schemas/" ++ name ≠ ""
          simp
      | some q =>
          show q ++ ".yaml#/components/schemas/" ++ name ≠ ""
          simp

/-- A declared type has a name. -/
def TypeExpr.Named : TypeExpr → Prop
  | .declared _ name _ => name ≠ ""
  | _ => True

theorem TypeExpr.spell_ne_empty {t : TypeExpr} (h : t.Named) : t.spell g q ≠ "" := by
  cases t with
  | base c => exact baseType_ne_empty g c
  | list t => cases g <;> simp [spell, Language.listType]
  | set t => cases g <;> simp [spell, Language.setType]
  | map k v => cases g <;> simp [spell, Language.mapType]
  | declared home name c => exact declaredType_ne_empty g (q home) h c

theorem fieldType_ne_empty {text : String} (h : text ≠ "") (c : Category) (optional : Bool) :
    g.fieldType text c optional ≠ "" := by
  cases g with
  | go =>
      rw [Language.fieldType]
      split <;> simp [h]
  | typescript =>
      rw [Language.fieldType]
      split <;> simp [h]
  | openApi =>
      rw [Language.fieldType]
      exact h

theorem zeroValue_ne_empty (c : Category) (type : String) : g.zeroValue c type ≠ "" := by
  cases g <;> cases c <;> simp [Language.zeroValue]

theorem positional_ne_empty (d : Decimal) : d.positional ≠ "" := by
  have hdigits : String.ofList (Nat.toDigits 10 d.digits) ≠ "" := by simp
  unfold Decimal.positional
  dsimp only
  split
  · simp [hdigits]
  · split
    · simp [Decimal.withPoint]
    · simp

theorem doubleLiteral_ne_empty (x : Float) : Language.doubleLiteral x ≠ "" := by
  have htext : positionalDouble x ≠ "" := by
    rw [positionalDouble, layoutDouble]
    split
    · decide
    · split
      · split <;> decide
      · simp [positional_ne_empty]
  unfold Language.doubleLiteral
  dsimp only
  split
  · exact htext
  · simp

theorem intLiteral_ne_empty (value : Int) (type : String) : g.intLiteral value type ≠ "" := by
  have hvalue : toString value ≠ "" := by
    cases value with
    | ofNat n => exact Nat.repr_ne_empty
    | negSucc n => simp [Int.repr]
  cases g with
  | go =>
      rw [Language.intLiteral]
      split
      · exact hvalue
      · simp
  | typescript => exact hvalue
  | openApi => exact hvalue

theorem quote_ne_empty (s : String) : Text.quote s ≠ "" := by
  simp [Text.quote]

theorem boolLiteral_ne_empty (b : Bool) : Language.boolLiteral b ≠ "" := by
  cases b <;> decide

theorem enumValue_ne_empty (qualifier : Option String) (enumName : String) {valueName : String}
    (h : valueName ≠ "") : g.enumValue qualifier enumName valueName ≠ "" := by
  cases g with
  | go => exact qualify_ne_empty qualifier h
  | typescript => simp [Language.enumValue]
  | openApi => exact quote_ne_empty _

/-- An enum value and a constant have a name. -/
def ValueExpr.Named : ValueExpr → Prop
  | .enumValue _ _ name => name ≠ ""
  | .constant _ name => name ≠ ""
  | _ => True

theorem ValueExpr.spell_ne_empty (t : TypeExpr) (text : String) {v : ValueExpr} (h : v.Named) :
    v.spell g q t text ≠ "" := by
  cases v with
  | int v =>
      rw [spell]
      split
      · exact boolLiteral_ne_empty _
      · exact doubleLiteral_ne_empty _
      · exact intLiteral_ne_empty g v text
  | double v => exact doubleLiteral_ne_empty v
  | literal s => exact quote_ne_empty s
  | bool b => exact boolLiteral_ne_empty b
  | enumValue home e name => exact enumValue_ne_empty g (q home) e h
  | constant home name => exact qualify_ne_empty (q home) h
  | list items =>
      rw [spell]
      cases g with
      | typescript =>
          rw [Language.listLiteral]
          split <;> simp
      | go => simp [Language.listLiteral]
      | openApi => simp [Language.listLiteral]
  | map entries => cases g <;> simp [spell, Language.mapLiteral]

end Nonempty

/-! ## Names that are found -/

/-- No name of a declaration or of an enum value is empty. -/
structure Place.Named (p : Place) : Prop where
  declared : ∀ source d, p.directory.declared.get? source = some d → d.name ≠ ""
  values : ∀ e ∈ p.directory.enums, ∀ v ∈ e.values, v.name ≠ ""

/-- Every place of the library is named. -/
def Library.Named (l : Library) : Prop :=
  ∀ file p, l.place? file = some p → p.Named

theorem Library.Named.of_le {l m : Library} (hl : l.Named) (hle : m ≤ l) : m.Named := by
  intro file p hp
  obtain ⟨s, hs, rfl⟩ := Option.map_eq_some_iff.mp hp
  exact hl file _ (Option.map_eq_some_iff.mpr ⟨s, hle _ _ hs, rfl⟩)

theorem Scope.Comes.named_directory {s : Scope} {o : Options} {d : Document} {l : Library}
    {k : Linkage} {r : Roster} {resolved : StructureLists ResolvedField}
    (h : s.Comes o d l k r resolved) {p : Place} (hdeclared : p.directory.declared = s.declared)
    (henums : p.directory.enums = s.enums) : p.Named := by
  have hsound := Site.sound_roster _ h.named
  constructor
  · intro source d hd
    rw [hdeclared, h.declared] at hd
    exact hsound.declared source d hd
  · intro e he
    rw [henums, h.enums] at he
    exact (hsound.enums e he).2

theorem Library.Sound.named {o : Options} {P : Tree → Prop} {l : Library} (h : l.Sound o P) :
    l.Named := by
  intro file p hp
  obtain ⟨s, hs, rfl⟩ := Option.map_eq_some_iff.mp hp
  obtain ⟨t, m, k, -, -, hbuilt⟩ := h.built file s hs
  obtain ⟨r, resolved, hcomes⟩ := hbuilt.comes
  exact hcomes.named_directory rfl rfl

section Found

variable {l : Library} {p : Place} (hl : l.Named) (hp : p.Named)
include hl hp

theorem Place.Named.of_sees {q : Place} (h : l.Sees p q) : q.Named := by
  rcases h with rfl | ⟨file, hfile⟩
  · exact hp
  · exact hl file q hfile

/-- A name that a look-up finds is not empty. -/
theorem name_of_declaration? {name : String} {reference : Option Reference}
    {accept : DeclKind → Bool} {q : Place} {d : Declared}
    (h : l.declaration? p name reference accept = some (q, d)) : d.name ≠ "" := by
  obtain ⟨hreaches, key, hd⟩ := Library.reaches_of_declaration? h
  exact (Place.Named.of_sees hl hp hreaches.sees).declared key d hd

theorem named_of_resolveType {t : IdlType} {owner : String} {e : TypeExpr}
    (h : l.resolveType p t owner = .ok e) : e.Named := by
  have hfind : ∀ t : IdlType, (l.locate p t owner).map Located.toType = .ok e → e.Named := by
    intro t ht
    obtain ⟨d, hd, rfl⟩ := map_eq_ok.mp ht
    obtain ⟨q, found, hq, -, hname⟩ := Library.locate_eq_ok hd
    show d.name ≠ ""
    rw [hname]
    exact name_of_declaration? hl hp hq
  rw [Library.resolveType] at h
  obtain ⟨_, category, key, value, reference, annotations⟩ := t
  cases category with
  | list | set =>
      obtain ⟨item, -, h⟩ := bind_eq_ok.mp h
      cases h
      trivial
  | map =>
      obtain ⟨k, -, h⟩ := bind_eq_ok.mp h
      obtain ⟨v, -, h⟩ := bind_eq_ok.mp h
      cases h
      trivial
  | enum | struct | union | exception | typedef | service => exact hfind _ h
  | _ =>
      cases h
      trivial

theorem named_of_resolveIdentifier {identifier owner : String} {v : ValueExpr}
    (h : l.resolveIdentifier p identifier owner = .ok v) : v.Named := by
  rcases Library.resolveIdentifier_eq_ok h with ⟨b, rfl⟩ | ⟨q, found, hq, rfl⟩ | hv
  · trivial
  · exact name_of_declaration? hl hp hq
  · obtain ⟨name, q, found, hq, e, he, value, hvalue, rfl⟩ := Library.enumValue?_eq_some hv
    exact (Place.Named.of_sees hl hp (Library.reaches_of_declaration? hq).1.sees).values e he value
      hvalue

theorem named_of_resolveValue {owner : String} {c : ConstValue} {v : ValueExpr}
    (h : l.resolveValue p owner c = .ok v) : v.Named := by
  cases c with
  | identifier s => exact named_of_resolveIdentifier hl hp h
  | list items =>
      obtain ⟨vs, -, rfl⟩ := map_eq_ok.mp h
      trivial
  | map entries =>
      obtain ⟨es, -, rfl⟩ := map_eq_ok.mp h
      trivial
  | int _ | double _ | literal _ =>
      cases h
      trivial

end Found

/-! ## Qualifiers of a finished linkage -/

/-- The qualifier of names from a home: none for the file itself and for files of its package,
and for any other file the alias under which the package of the file is imported. -/
inductive Linkage.Qualifies (k : Linkage) (g : Language) (l : Library) :
    Home → Option String → Prop
  | here : Qualifies k g l .here none
  | inside {file : String} {s : Scope} (hs : l.scope? file = some s)
    (h : s.package.path = k.package.path) : Qualifies k g l (.foreign file) none
  | imported {file : String} {s : Scope} {name : String} (hs : l.scope? file = some s)
    (h : s.package.path ≠ k.package.path)
    (hname : k.imports.alias? (g.importPath k.package s.package) = some name) :
    Qualifies k g l (.foreign file) (some name)

namespace Linkage.Qualifies

variable {k k' : Linkage} {g : Language} {l m : Library} {home : Home} {q : Option String}

theorem of_le (hle : k ≤ k') (h : k.Qualifies g l home q) : k'.Qualifies g l home q := by
  have hpackage : k.package = k'.package := hle.1
  cases h with
  | here => exact .here
  | inside hs h => exact .inside hs (hpackage ▸ h)
  | imported hs h hname => exact .imported hs (hpackage ▸ h) (hpackage ▸ hle.2.2 _ _ hname)

theorem mono (hle : l ≤ m) (h : k.Qualifies g l home q) : k.Qualifies g m home q := by
  cases h with
  | here => exact .here
  | inside hs h => exact .inside (hle _ _ hs) h
  | imported hs h hname => exact .imported (hle _ _ hs) h hname

theorem answer_eq (h : k.Qualifies g l home q) : RenderEnv.answer ⟨g, l⟩ k home = q := by
  cases h with
  | here => rfl
  | inside hs h => simp only [RenderEnv.answer, hs, if_pos h]
  | imported hs h hname => simp only [RenderEnv.answer, hs, if_neg h, hname]

/-- Asking for a qualifier leads to a linkage that has it. -/
theorem of_qualifierOf (hhome : l.Holds home) :
    ((RenderEnv.mk g l).qualifierOf k home).2.Qualifies g l home
      ((RenderEnv.mk g l).qualifierOf k home).1 := by
  cases home with
  | here => exact .here
  | foreign file =>
      obtain ⟨s, hs⟩ := hhome
      rw [RenderEnv.qualifierOf]
      simp only [hs]
      by_cases h : s.package.path = k.package.path
      · rw [Linkage.qualifierFor_of_eq _ _ h]
        exact .inside hs h
      · obtain ⟨name, hname, halias⟩ := Linkage.qualifierFor_of_ne g s.document h
        have hpackage := (Linkage.le_qualifierFor g s.document s.package k).1
        rw [hname]
        exact .imported hs (hpackage ▸ h) (hpackage ▸ halias)

/-- Homes that were visited have their qualifiers in every later linkage. -/
theorem of_visit {homes : List Home} (hhomes : ∀ home ∈ homes, l.Holds home)
    (hle : (RenderEnv.mk g l).visit k homes ≤ k') :
    ∀ home ∈ homes, k'.Qualifies g l home (RenderEnv.answer ⟨g, l⟩ k' home) := by
  induction homes generalizing k with
  | nil => exact fun home hhome => absurd hhome List.not_mem_nil
  | cons first homes ih =>
      intro home hhome
      rcases List.mem_cons.mp hhome with rfl | hhome
      · have hgiven := (of_qualifierOf (k := k) (g := g) (hhomes home List.mem_cons_self)).of_le
          ((RenderEnv.le_visit _ _ homes).trans hle)
        rwa [hgiven.answer_eq]
      · exact ih (fun other hother => hhomes other (List.mem_cons_of_mem _ hother)) hle home hhome

end Linkage.Qualifies

/-- What is written under the qualifiers of a finished linkage is written again, if the linkage
is asked once more. -/
theorem RenderEnv.Writes.again {α : Type} {g : Language} {l : Library} {step : Link α}
    {homes : List Home} {out : (Home → Option String) → α} (h : Writes ⟨g, l⟩ step homes out)
    {k : Linkage} {q : Home → Option String} (hq : ∀ home ∈ homes, k.Qualifies g l home (q home)) :
    (step.run k).1 = out q :=
  h.result k q fun home hhome => ((hq home hhome).of_le (le_visit _ k homes)).answer_eq.symm

/-! ## Settled fields -/

/-- The texts of a field are the ones of its own type and value, resolved at a place, with the
qualifiers that a finished linkage has for their homes. -/
structure Field.Settled (f : Field) (g : Language) (l : Library) (k : Linkage) (p : Place)
    (owner : String) (t : TypeExpr) (v : Option ValueExpr) (q : Home → Option String) : Prop where
  typeExpr : l.resolveType p f.decl.type owner = .ok t
  valueExpr : f.decl.initial.mapM (l.resolveValue p owner) = .ok v
  plainType : f.plainType = t.written g q
  type : f.type = ⟨g.fieldType f.plainType.text t.underlying f.decl.isOptional,
    f.plainType.qualifiers⟩
  declared : ∀ c, v = some c → f.value = c.written g q t f.plainType.text
  zero : v = none → f.value = ⟨g.zeroValue t.underlying f.plainType.text, []⟩
  hasDefault : f.hasDefault = f.decl.initial.isSome
  typeHomes : ∀ home ∈ t.homes, k.Qualifies g l home (q home)
  valueHomes : ∀ c, v = some c → ∀ home ∈ c.homes t, k.Qualifies g l home (q home)
  /-- Rendering from the finished linkage gives the same type. -/
  typeAgain : (RenderEnv.type ⟨g, l⟩ t k).1 = f.plainType
  /-- Rendering from the finished linkage gives the same value. -/
  valueAgain : ∀ c, v = some c → (RenderEnv.value ⟨g, l⟩ t f.plainType.text c k).1 = f.value
  nonempty : f.plainType.text ≠ "" ∧ f.type.text ≠ "" ∧ f.value.text ≠ ""

section Settling

variable {l m : Library} {own : Place} {g : Language} {k : Linkage} {q : Home → Option String}
  {name : String} {r : ResolvedField}

/-- The texts of a resolved field are not empty. -/
theorem ResolvedField.nonempty_written (hm : m.Named) (hown : own.Named)
    (hfield : m.resolveField own name r.toNamedField = .ok r) :
    (r.written g q).plainType.text ≠ "" ∧ (r.written g q).type.text ≠ "" ∧
      (r.written g q).value.text ≠ "" := by
  obtain ⟨-, htype, hvalue⟩ := resolveField_eq_ok hfield
  have hp := Place.Named.of_sees hm hown (m.sees_declaringPlace own r.toNamedField)
  have hplain := r.typeExpr.spell_ne_empty g q (named_of_resolveType hm hp htype)
  refine ⟨hplain, fieldType_ne_empty g hplain _ _, ?_⟩
  rcases optionMapM_eq_ok.mp hvalue with ⟨-, hnone⟩ | ⟨c, v, -, hsome, hv⟩
  · rw [value_of_none hnone]
    exact zeroValue_ne_empty g _ _
  · rw [value_of_some hsome]
    exact v.spell_ne_empty g q _ _ (named_of_resolveValue hm hp hv)

/-- A field that was resolved on a smaller library and written with the qualifiers of a
finished linkage is settled. -/
theorem ResolvedField.settled (hle : m ≤ l) (hclosed : m.Closed) (hcovered : own.Covered m)
    (hm : m.Named) (hown : own.Named)
    (horigin : ∀ o, r.origin = some o → m.Holds o.home)
    (hfield : m.resolveField own name r.toNamedField = .ok r)
    (hq : ∀ home ∈ r.homes, k.Qualifies g m home (q home)) :
    (r.written g q).Settled g l k (l.declaringPlace own r.toNamedField)
      (name ++ "." ++ r.decl.name) r.typeExpr r.valueExpr q := by
  have hnonempty := r.nonempty_written (g := g) (q := q) hm hown hfield
  obtain ⟨-, htype, hvalue⟩ := resolveField_eq_ok hfield
  have hp := hclosed.covered_of_sees hcovered (m.sees_declaringPlace own r.toNamedField)
  -- the larger library resolves the field as the smaller one did
  rw [← declaringPlace_eq hle own horigin] at htype hvalue hp
  rw [← funext (Library.resolveValue_eq hle hclosed hp _)] at hvalue
  rw [← Library.resolveType_eq hle hclosed hp] at htype
  have htypeHomes : ∀ home ∈ r.typeExpr.homes, k.Qualifies g l home (q home) :=
    fun home hhome => (hq home (List.mem_append_left _ hhome)).mono hle
  have hvalueHomes : ∀ c, r.valueExpr = some c → ∀ home ∈ c.homes r.typeExpr,
      k.Qualifies g l home (q home) := by
    intro c hc home hhome
    refine (hq home (List.mem_append_right _ ?_)).mono hle
    rw [hc]
    exact hhome
  refine ⟨htype, hvalue, rfl, rfl, fun c hc => value_of_some hc, fun h => value_of_none h, ?_,
    htypeHomes, hvalueHomes, ?_, ?_, hnonempty⟩
  · show r.valueExpr.isSome = r.decl.initial.isSome
    rcases optionMapM_eq_ok.mp hvalue with ⟨hinitial, hnone⟩ | ⟨c, v, hinitial, hsome, -⟩
    · rw [hnone, show r.decl.initial = none from hinitial]
      rfl
    · rw [hsome, show r.decl.initial = some c from hinitial]
      rfl
  · exact (RenderEnv.writes_type ⟨g, l⟩ r.typeExpr).again htypeHomes
  · intro c hc
    rw [value_of_some hc]
    exact (RenderEnv.writes_value ⟨g, l⟩ r.typeExpr _ c).again (hvalueHomes c hc)

end Settling

/-! ## Fields of finished scopes -/

namespace Scope.Comes

variable {s : Scope} {o : Options} {d : Document} {l : Library} {k : Linkage} {r : Roster}
  {resolved : StructureLists ResolvedField} (h : s.Comes o d l k r resolved) (hl : l.Closed)
  (hk : k.Covered l) {st : Structure ResolvedField} (hst : st ∈ resolved.all) {f : ResolvedField}
  (hf : f ∈ st.allFields)
include h hl hk hst hf

/-- Resolved fields that stand for others come from homes of the library. -/
theorem holds_origin : ∀ origin, f.origin = some origin → l.Holds origin.home := by
  obtain ⟨named, hnamed, hmem⟩ := h.mem_roster hst hf
  intro origin
  exact (Site.sound_roster _ h.named).holds_origin hl (d.covered_bare hk) hnamed hmem

/-- The homes that a field mentions have their qualifiers in the finished linkage. -/
theorem qualifies : ∀ home ∈ f.homes, s.linkage.Qualifies o.language l home
    (RenderEnv.answer ⟨o.language, l⟩ s.linkage home) := by
  have hheld := holds_resolved hl hk h.fields
  intro home hhome
  refine Linkage.Qualifies.of_visit (fun other hother => ?_) h.visited home
    (List.mem_flatMap.mpr ⟨st, hst, List.mem_flatMap.mpr ⟨f, hf, hhome⟩⟩)
  obtain ⟨st', hst', hother⟩ := List.mem_flatMap.mp hother
  obtain ⟨f', hf', hother⟩ := List.mem_flatMap.mp hother
  exact hheld st' hst' f' hf' other hother

end Scope.Comes

/-- The file of a scope with its names and its first includes only, as it was before any type
was written. -/
def Scope.unwritten (s : Scope) (count : Nat) : Place :=
  ⟨.here, { s.directory with includes := s.linkage.includes.take count }⟩

/-- **Resolution is complete and agrees with the finished imports.** In every scope that a run
comes to, the texts of every field are the ones of its own type and value, found where the
field was declared before any type of the file was written, and the qualifier of every home
in them is the one that the finished import table has. -/
theorem fields_settled (o : Options) (requests : List Request) {file : String} {s : Scope}
    (hs : ((Run.new o).serveAll requests).library.scope? file = some s) :
    ∃ t : Tree, t.Among (requests.flatMap Request.trees) ∧ s.document = t.document ∧
      ∀ st ∈ s.structures.all, ∀ f ∈ st.allFields, ∃ type value q,
        f.Settled o.language ((Run.new o).serveAll requests).library s.linkage
          (((Run.new o).serveAll requests).library.declaringPlace
            (s.unwritten t.includes.length) f.toNamedField)
          (st.source ++ "." ++ f.decl.name) type value q := by
  have hlibrary := Run.sound_serveAll o requests
  obtain ⟨t, m, k, ht, hle, hbuilt⟩ := hlibrary.built file s hs
  obtain ⟨r, resolved, hcomes⟩ := hbuilt.comes
  -- the file was at this place when its fields were resolved
  have hown : s.unwritten t.includes.length = r.place t.document k := by
    rw [Scope.unwritten, Scope.directory, hbuilt.take_includes, hcomes.document, hcomes.declared,
      hcomes.enums]
    rfl
  refine ⟨t, ht, hcomes.document, ?_⟩
  intro st hst f hf
  rw [hcomes.structures, StructureLists.all_map] at hst
  obtain ⟨st, hmem, rfl⟩ := List.mem_map.mp hst
  rw [Structure.allFields_map] at hf
  obtain ⟨f, hfield, rfl⟩ := List.mem_map.mp hf
  obtain ⟨-, hresolved⟩ := StructureLists.mapM_eq_ok
    (fun _ _ _ h => (resolveField_eq_ok h).1) hcomes.fields
  have horigin := hcomes.holds_origin hbuilt.closed hbuilt.covered hmem hfield
  have hq := hcomes.qualifies hbuilt.closed hbuilt.covered hmem hfield
  rw [hown]
  exact ⟨f.typeExpr, f.valueExpr, _, f.settled hle hbuilt.closed
    (r.covered_place t.document hbuilt.covered) (hlibrary.named.of_le hle)
    (hcomes.named_directory hcomes.declared.symm hcomes.enums.symm) horigin
    (hresolved st hmem f hfield) hq⟩

set_option maxRecDepth 100000 in
/-- The color of the holder is settled: its type and its value come from another file. -/
theorem fields_settled_holder : ∃ s, ∃ st ∈ s.structures.all, ∃ f ∈ st.allFields,
    (Sample.library {}).scope? "user.thrift" = some s ∧
      f.type.text = "base.Color" ∧ f.value.text = "base.Color_RED" ∧
      ∃ t : Tree, s.document = t.document ∧ ∃ type value q,
        f.Settled .go (Sample.library {}) s.linkage
          ((Sample.library {}).declaringPlace (s.unwritten t.includes.length) f.toNamedField)
          (st.source ++ "." ++ f.decl.name) type value q := by
  have hfound : ((Sample.library {}).scope? "user.thrift").any
      (fun s => s.structures.all.any fun st => st.allFields.any fun f =>
        f.type.text == "base.Color" && f.value.text == "base.Color_RED") = true := by
    decide +kernel
  obtain ⟨s, hs, hfound⟩ := (Option.any_eq_true _ _).mp hfound
  simp only [List.any_eq_true, Bool.and_eq_true, beq_iff_eq] at hfound
  obtain ⟨st, hst, f, hf, htype, hvalue⟩ := hfound
  obtain ⟨t, -, hdocument, hsettled⟩ := fields_settled {} [.build Sample.user] hs
  exact ⟨s, st, hst, f, hf, hs, htype, hvalue, t, hdocument, hsettled st hst f hf⟩

/-- Is the value one of an enum from the home? -/
def ValueExpr.isEnumOf (home : Home) : ValueExpr → Bool
  | .enumValue other _ _ => other == home
  | _ => false

set_option maxRecDepth 100000 in
/-- A document writes the default of the color without the alias of its file, although the file
is another one and is imported: enum values stand in documents by their own names. -/
theorem openApi_enumValue_unqualified : ∃ s, ∃ st ∈ s.structures.all, ∃ f ∈ st.allFields,
    (Sample.library { language := .openApi }).scope? "user.thrift" = some s ∧
      s.linkage.Qualifies .openApi (Sample.library { language := .openApi })
        (.foreign "base.thrift") (some "base") ∧
      (∃ c v, f.decl.initial = some c ∧
        (Sample.library { language := .openApi }).resolveValue
          (s.unwritten Sample.user.includes.length) (st.source ++ "." ++ f.decl.name) c = .ok v ∧
        v.isEnumOf (.foreign "base.thrift") = true) ∧
      f.value.text = "\"RED\"" ∧ ¬ "base".toList <:+: f.value.text.toList := by
  have hfound : ((Sample.library { language := .openApi }).scope? "user.thrift").any
      (fun s => ((Sample.library { language := .openApi }).scope? "base.thrift").any
          (fun b => decide (b.package.path ≠ s.package.path) && s.linkage.imports.alias?
            (Language.openApi.importPath s.package b.package) == some "base") &&
        s.structures.all.any fun st => st.allFields.any fun f => f.value.text == "\"RED\"" &&
          f.decl.initial.any fun c => ((Sample.library { language := .openApi }).resolveValue
            (s.unwritten Sample.user.includes.length) (st.source ++ "." ++ f.decl.name)
            c).toOption.any (ValueExpr.isEnumOf (.foreign "base.thrift"))) = true := by
    decide +kernel
  obtain ⟨s, hs, hfound⟩ := (Option.any_eq_true _ _).mp hfound
  simp only [Option.any_eq_true, List.any_eq_true, Bool.and_eq_true, decide_eq_true_eq, beq_iff_eq,
    toOption_eq_some] at hfound
  obtain ⟨⟨b, hb, hpath, halias⟩, st, hst, f, hf, htext, c, hc, v, hv, hforeign⟩ := hfound
  refine ⟨s, st, hst, f, hf, hs, .imported hb hpath halias, ⟨c, v, hc, hv, hforeign⟩, htext, ?_⟩
  rw [htext]
  decide

end IdlScope

import IdlScope.Proofs.Imports
import IdlScope.Proofs.Steps
import IdlScope.Scope.Finish

/-!
# Spelling — rendered text as a function of the aliases

Rendering writes text and changes the linkage at the same time, one name after the other. The
two are separated here:

* **`TypeExpr.homes`**, **`ValueExpr.homes`** — the homes whose qualifiers a text asks for, in
  order. They alone decide what rendering does to the linkage (`RenderEnv.visit`).
* **`TypeExpr.spell`**, **`ValueExpr.spell`** — the text, given the qualifier of every home.
* **`RenderEnv.Renders`** — a rendering step visits its homes, and its text is the spelling
  under the qualifiers that the linkage has for them afterwards. An alias never changes, so
  these are the qualifiers of every later linkage too (`answer_of_visit_le`).

The same statement for steps that write whole fields is `RenderEnv.Writes`.
-/

namespace IdlScope

/-! ## Homes and spellings -/

namespace TypeExpr

/-- The homes of the names in a type. -/
def homes : TypeExpr → List Home
  | .base _ => []
  | .list t => t.homes
  | .set t => t.homes
  | .map k v => k.homes ++ v.homes
  | .declared home _ _ => [home]

/-- The text of a type whose names have the qualifiers `q`. -/
def spell (g : Language) (q : Home → Option String) : TypeExpr → String
  | .base c => g.baseType c
  | .list t => g.listType (t.spell g q)
  | .set t => g.setType (t.spell g q)
  | .map k v => g.mapType (k.spell g q) (v.spell g q)
  | .declared home name underlying => g.declaredType (q home) name underlying

theorem homes_item (t : TypeExpr) : ∀ h ∈ t.item.homes, h ∈ t.homes := by
  cases t <;> simp [item, homes]

theorem homes_keyAndValue (t : TypeExpr) :
    (∀ h ∈ t.keyAndValue.1.homes, h ∈ t.homes) ∧ ∀ h ∈ t.keyAndValue.2.homes, h ∈ t.homes := by
  cases t with
  | map k v => simp +contextual [keyAndValue, homes]
  | _ => simp [keyAndValue, homes]

end TypeExpr

namespace ValueExpr

mutual

/-- The homes of the names in a value of a type, and of the types of its elements. -/
def homes (t : TypeExpr) : ValueExpr → List Home
  | .int _ => []
  | .double _ => []
  | .literal _ => []
  | .bool _ => []
  | .enumValue home _ _ => [home]
  | .constant home _ => [home]
  | .list items => t.item.homes ++ itemHomes t.item items
  | .map entries =>
    t.keyAndValue.1.homes ++ (t.keyAndValue.2.homes ++ entryHomes t.keyAndValue entries)
termination_by structural v => v

/-- The homes in the items of a list. -/
def itemHomes (t : TypeExpr) : List ValueExpr → List Home
  | [] => []
  | v :: vs => homes t v ++ itemHomes t vs
termination_by structural vs => vs

/-- The homes in the entries of a map. -/
def entryHomes (t : TypeExpr × TypeExpr) : List (ValueExpr × ValueExpr) → List Home
  | [] => []
  | e :: es => pairHomes t e ++ entryHomes t es
termination_by structural es => es

/-- The homes in the key and the value of an entry. -/
def pairHomes (t : TypeExpr × TypeExpr) : ValueExpr × ValueExpr → List Home
  | (k, v) => homes t.1 k ++ homes t.2 v
termination_by structural e => e

end

mutual

/-- The text of a value of a type with a given text, where names have the qualifiers `q`. -/
def spell (g : Language) (q : Home → Option String) (t : TypeExpr) (text : String) :
    ValueExpr → String
  | .int v =>
    match t.underlying with
    | .bool => Language.boolLiteral (v != 0)
    | .double => Language.doubleLiteral (Float.ofInt v)
    | _ => g.intLiteral v text
  | .double v => Language.doubleLiteral v
  | .literal s => Text.quote s
  | .bool b => Language.boolLiteral b
  | .enumValue home enumName valueName => g.enumValue (q home) enumName valueName
  | .constant home name => qualify (q home) name
  | .list items => g.listLiteral text (spellItems g q t.item (t.item.spell g q) items)
  | .map entries =>
    g.mapLiteral text (spellEntries g q t.keyAndValue (t.keyAndValue.1.spell g q)
      (t.keyAndValue.2.spell g q) entries)
termination_by structural v => v

/-- The texts of the items of a list. -/
def spellItems (g : Language) (q : Home → Option String) (t : TypeExpr) (text : String) :
    List ValueExpr → List String
  | [] => []
  | v :: vs => spell g q t text v :: spellItems g q t text vs
termination_by structural vs => vs

/-- The texts of the entries of a map. -/
def spellEntries (g : Language) (q : Home → Option String) (t : TypeExpr × TypeExpr)
    (keyType valueType : String) : List (ValueExpr × ValueExpr) → List (String × String)
  | [] => []
  | e :: es => spellPair g q t keyType valueType e :: spellEntries g q t keyType valueType es
termination_by structural es => es

/-- The texts of the key and the value of an entry. -/
def spellPair (g : Language) (q : Home → Option String) (t : TypeExpr × TypeExpr)
    (keyType valueType : String) : ValueExpr × ValueExpr → String × String
  | (k, v) => (spell g q t.1 keyType k, spell g q t.2 valueType v)
termination_by structural e => e

end

end ValueExpr

/-! ## Answers and visits -/

namespace RenderEnv

variable (e : RenderEnv)

/-- The qualifier that a linkage has for a home as it is, without being asked. -/
def answer (l : Linkage) : Home → Option String
  | .here => none
  | .foreign file =>
    match e.library.scope? file with
    | none => none
    | some s =>
      if s.package.path = l.package.path then none
      else l.imports.alias? (e.language.importPath l.package s.package)

/-- The linkage after it was asked for the qualifiers of homes. -/
def visit (l : Linkage) (homes : List Home) : Linkage :=
  homes.foldl (fun l h => (e.qualifierOf l h).2) l

@[simp] theorem visit_nil (l : Linkage) : e.visit l [] = l := rfl

theorem visit_cons (l : Linkage) (h : Home) (hs : List Home) :
    e.visit l (h :: hs) = e.visit (e.qualifierOf l h).2 hs := rfl

theorem visit_append (l : Linkage) (hs ks : List Home) :
    e.visit l (hs ++ ks) = e.visit (e.visit l hs) ks :=
  List.foldl_append

theorem le_qualifierOf (l : Linkage) (h : Home) : l ≤ (e.qualifierOf l h).2 := by
  unfold qualifierOf
  cases h with
  | here => exact le_refl l
  | foreign file =>
      dsimp only
      split
      · exact le_refl l
      · exact Linkage.le_qualifierFor _ _ _ l

theorem le_visit (l : Linkage) (homes : List Home) : l ≤ e.visit l homes := by
  induction homes generalizing l with
  | nil => exact le_refl l
  | cons h hs ih => exact (le_qualifierOf e l h).trans (ih _)

/-- A qualifier that was given is the answer of the linkage from then on. -/
theorem answer_of_qualifierOf_le {l k : Linkage} {h : Home} (hle : (e.qualifierOf l h).2 ≤ k) :
    e.answer k h = (e.qualifierOf l h).1 := by
  unfold qualifierOf at hle ⊢
  unfold answer
  cases h with
  | here => rfl
  | foreign file =>
      dsimp only at hle ⊢
      cases hs : e.library.scope? file with
      | none => rfl
      | some s =>
          simp only [hs] at hle ⊢
          have hpackage : l.package = k.package :=
            ((Linkage.le_qualifierFor e.language s.document s.package l).trans hle).1
          -- packages never change, so both linkages ask for the same path
          by_cases hp : s.package.path = l.package.path
          · rw [if_pos (hpackage ▸ hp), Linkage.qualifierFor_of_eq _ _ hp]
          · obtain ⟨name, hname, halias⟩ :=
              Linkage.qualifierFor_of_ne e.language s.document hp
            rw [if_neg (hpackage ▸ hp), hname, ← hpackage]
            exact hle.2.2 _ _ halias

/-- Homes that were visited keep their answers. -/
theorem answer_of_visit_le {l k : Linkage} {homes : List Home} (hle : e.visit l homes ≤ k) :
    ∀ h ∈ homes, e.answer k h = e.answer (e.visit l homes) h := by
  induction homes generalizing l with
  | nil => simp
  | cons h hs ih =>
      intro h' hmem
      rcases List.mem_cons.mp hmem with rfl | hmem
      · rw [answer_of_qualifierOf_le e ((le_visit e _ hs).trans hle),
          visit_cons, answer_of_qualifierOf_le e (le_visit e _ hs)]
      · exact ih hle h' hmem

/-! ## What a rendering step does -/

/-- Qualifiers noted one after the other. -/
def noted (aliases : List String) (qs : List (Option String)) : List String :=
  qs.foldl note aliases

theorem mem_noted {aliases : List String} {qs : List (Option String)} {a : String} :
    a ∈ noted aliases qs ↔ a ∈ aliases ∨ some a ∈ qs := by
  induction qs generalizing aliases with
  | nil => simp [noted]
  | cons q qs ih =>
      rw [noted, List.foldl_cons, ← noted, ih, List.mem_cons]
      cases q with
      | none => simp [note]
      | some name =>
          by_cases h : name ∈ aliases
          · simp only [note, if_pos h, Option.some.injEq]
            constructor
            · rintro (h' | h') <;> simp [h']
            · rintro (h' | rfl | h') <;> simp [*]
          · simp only [note, if_neg h, List.mem_append, List.mem_singleton, Option.some.injEq]
            tauto

/-- The step asks for the qualifiers of the homes, and what it gives is `out` under the
qualifiers that the linkage has for them afterwards. -/
structure Renders {α : Type} (step : Render α) (homes : List Home)
    (out : (Home → Option String) → α) : Prop where
  linkage : ∀ d, (step.run d).2.linkage = e.visit d.linkage homes
  result : ∀ d q, (∀ h ∈ homes, q h = e.answer (e.visit d.linkage homes) h) →
    (step.run d).1 = out q ∧ (step.run d).2.qualifiers = noted d.qualifiers (homes.map q)

namespace Renders

variable {e} {α β : Type}

protected theorem pure (a : α) : Renders e (pure a) [] fun _ => a :=
  ⟨fun _ => rfl, fun _ _ _ => ⟨rfl, rfl⟩⟩

protected theorem bind {step : Render α} {hs ks : List Home} {out : (Home → Option String) → α}
    {next : α → Render β} {out' : α → (Home → Option String) → β} (h : Renders e step hs out)
    (h' : ∀ a, Renders e (next a) ks (out' a)) :
    Renders e (step >>= next) (hs ++ ks) fun q => out' (out q) q := by
  have hrun : ∀ d, (step >>= next).run d = (next (step.run d).1).run (step.run d).2 :=
    fun _ => rfl
  constructor
  · intro d
    rw [hrun, (h' _).linkage, h.linkage, visit_append]
  · intro d q hq
    rw [visit_append] at hq
    -- what the first step was told is still the answer behind the second
    have hfirst : ∀ k ∈ hs, q k = e.answer (e.visit d.linkage hs) k := by
      intro k hk
      rw [hq k (List.mem_append_left _ hk)]
      exact answer_of_visit_le e (le_visit e _ ks) k hk
    obtain ⟨hout, hnoted⟩ := h.result d q hfirst
    rw [hrun]
    have hlinkage := h.linkage d
    obtain ⟨hout', hnoted'⟩ := (h' (step.run d).1).result (step.run d).2 q (by
      rw [hlinkage]
      exact fun k hk => hq k (List.mem_append_right _ hk))
    refine ⟨by rw [hout', hout], ?_⟩
    rw [hnoted', hnoted, List.map_append, noted, noted, noted, List.foldl_append]

protected theorem map {step : Render α} {hs : List Home} {out : (Home → Option String) → α}
    (h : Renders e step hs out) (f : α → β) :
    Renders e (step >>= fun a => pure (f a)) hs fun q => f (out q) := by
  simpa using h.bind (fun a => Renders.pure (e := e) (f a))

protected theorem qualifier (home : Home) :
    Renders e (e.qualifier home) [home] fun q => q home := by
  refine ⟨fun _ => rfl, ?_⟩
  intro d q hq
  have hq' : q home = (e.qualifierOf d.linkage home).1 := by
    rw [hq home List.mem_cons_self]
    exact answer_of_qualifierOf_le e (le_refl _)
  refine ⟨hq'.symm, ?_⟩
  rw [List.map_singleton, hq']
  rfl

end Renders

theorem renders_typeText (t : TypeExpr) :
    Renders e (e.typeText t) t.homes (fun q => t.spell e.language q) := by
  induction t with
  | base c => exact .pure _
  | list t ih => exact ih.map _
  | set t ih => exact ih.map _
  | map k v ihk ihv => exact ihk.bind fun key => ihv.map _
  | declared home name underlying => exact (Renders.qualifier home).map _

mutual

theorem renders_valueText (t : TypeExpr) (text : String) : ∀ v : ValueExpr,
    Renders e (e.valueText t text v) (v.homes t) (fun q => v.spell e.language q t text)
  | .int _ => .pure _
  | .double _ => .pure _
  | .literal _ => .pure _
  | .bool _ => .pure _
  | .enumValue home _ _ => (Renders.qualifier home).map _
  | .constant home _ => (Renders.qualifier home).map _
  | .list items =>
    (renders_typeText e t.item).bind fun itemText =>
      (renders_valueTexts t.item itemText items).map _
  | .map entries =>
    (renders_typeText e t.keyAndValue.1).bind fun keyType =>
      (renders_typeText e t.keyAndValue.2).bind fun valueType =>
        (renders_entryTexts t.keyAndValue keyType valueType entries).map _
termination_by structural v => v

theorem renders_valueTexts (t : TypeExpr) (text : String) : ∀ vs : List ValueExpr,
    Renders e (e.valueTexts t text vs) (ValueExpr.itemHomes t vs)
      (fun q => ValueExpr.spellItems e.language q t text vs)
  | [] => .pure _
  | v :: vs =>
    (renders_valueText t text v).bind fun _ => (renders_valueTexts t text vs).map _
termination_by structural vs => vs

theorem renders_entryTexts (t : TypeExpr × TypeExpr) (keyType valueType : String) :
    ∀ es : List (ValueExpr × ValueExpr),
    Renders e (e.entryTexts t keyType valueType es) (ValueExpr.entryHomes t es)
      (fun q => ValueExpr.spellEntries e.language q t keyType valueType es)
  | [] => .pure _
  | entry :: es =>
    (renders_entryText t keyType valueType entry).bind fun _ =>
      (renders_entryTexts t keyType valueType es).map _
termination_by structural es => es

theorem renders_entryText (t : TypeExpr × TypeExpr) (keyType valueType : String) :
    ∀ entry : ValueExpr × ValueExpr,
    Renders e (e.entryText t keyType valueType entry) (ValueExpr.pairHomes t entry)
      (fun q => ValueExpr.spellPair e.language q t keyType valueType entry)
  | (k, v) =>
    (renders_valueText t.1 keyType k).bind fun _ => (renders_valueText t.2 valueType v).map _
termination_by structural entry => entry

end

end RenderEnv

/-! ## Written texts -/

/-- A type as text with the aliases that it mentions. -/
def TypeExpr.written (g : Language) (q : Home → Option String) (t : TypeExpr) : Rendered :=
  ⟨t.spell g q, RenderEnv.noted [] (t.homes.map q)⟩

/-- A value of a type as text with the aliases that it mentions. -/
def ValueExpr.written (g : Language) (q : Home → Option String) (t : TypeExpr) (text : String)
    (v : ValueExpr) : Rendered :=
  ⟨v.spell g q t text, RenderEnv.noted [] ((v.homes t).map q)⟩

namespace ResolvedField

/-- The homes of the names in the type and the declared value of a field. -/
def homes (f : ResolvedField) : List Home :=
  f.typeExpr.homes ++ (f.valueExpr.elim [] fun v => v.homes f.typeExpr)

/-- The texts of a field whose names have the qualifiers `q`. -/
def typing (g : Language) (q : Home → Option String) (f : ResolvedField) : Typing where
  type := ⟨g.fieldType (f.typeExpr.spell g q) f.typeExpr.underlying f.decl.isOptional,
    (f.typeExpr.written g q).qualifiers⟩
  plainType := f.typeExpr.written g q
  value :=
    match f.valueExpr with
    | some v => v.written g q f.typeExpr (f.typeExpr.spell g q)
    | none => ⟨g.zeroValue f.typeExpr.underlying (f.typeExpr.spell g q), []⟩
  hasDefault := f.valueExpr.isSome

/-- A field with its texts. -/
def written (g : Language) (q : Home → Option String) (f : ResolvedField) : Field :=
  { f.toNamedField, f.typing g q with }

theorem value_of_some {g : Language} {q : Home → Option String} {f : ResolvedField} {v : ValueExpr}
    (h : f.valueExpr = some v) :
    (f.written g q).value = v.written g q f.typeExpr (f.typeExpr.spell g q) := by
  simp [written, typing, h]

theorem value_of_none {g : Language} {q : Home → Option String} {f : ResolvedField}
    (h : f.valueExpr = none) :
    (f.written g q).value = ⟨g.zeroValue f.typeExpr.underlying (f.typeExpr.spell g q), []⟩ := by
  simp [written, typing, h]

end ResolvedField

namespace RenderEnv

variable (e : RenderEnv)

/-- The step asks for the qualifiers of the homes, and what it gives is `out` under the
qualifiers that the linkage has for them afterwards. -/
structure Writes {α : Type} (step : Link α) (homes : List Home)
    (out : (Home → Option String) → α) : Prop where
  linkage : ∀ l, (step.run l).2 = e.visit l homes
  result : ∀ l q, (∀ h ∈ homes, q h = e.answer (e.visit l homes) h) → (step.run l).1 = out q

namespace Writes

variable {e} {α β : Type}

protected theorem pure (a : α) : Writes e (pure a) [] fun _ => a :=
  ⟨fun _ => rfl, fun _ _ _ => rfl⟩

protected theorem bind {step : Link α} {hs ks : List Home} {out : (Home → Option String) → α}
    {next : α → Link β} {out' : α → (Home → Option String) → β} (h : Writes e step hs out)
    (h' : ∀ a, Writes e (next a) ks (out' a)) :
    Writes e (step >>= next) (hs ++ ks) fun q => out' (out q) q := by
  have hrun : ∀ l, (step >>= next).run l = (next (step.run l).1).run (step.run l).2 :=
    fun _ => rfl
  constructor
  · intro l
    rw [hrun, (h' _).linkage, h.linkage, visit_append]
  · intro l q hq
    rw [visit_append] at hq
    -- aliases stay, so the first step may be asked under the last linkage
    have hfirst : ∀ k ∈ hs, q k = e.answer (e.visit l hs) k := by
      intro k hk
      rw [hq k (List.mem_append_left _ hk)]
      exact answer_of_visit_le e (le_visit e _ ks) k hk
    rw [hrun, (h' _).result _ q, h.result l q hfirst]
    rw [h.linkage]
    exact fun k hk => hq k (List.mem_append_right _ hk)

protected theorem map {step : Link α} {hs : List Home} {out : (Home → Option String) → α}
    (h : Writes e step hs out) (f : α → β) :
    Writes e (step >>= fun a => pure (f a)) hs fun q => f (out q) := by
  simpa using h.bind (fun a => Writes.pure (e := e) (f a))

/-- A text that is rendered on its own notes its own aliases. -/
theorem rendered {step : Render String} {hs : List Home} {out : (Home → Option String) → String}
    (h : Renders e step hs out) :
    Writes e (rendered step) hs fun q => ⟨out q, noted [] (hs.map q)⟩ := by
  refine ⟨fun l => h.linkage ⟨l, []⟩, ?_⟩
  intro l q hq
  obtain ⟨htext, hnoted⟩ := h.result ⟨l, []⟩ q hq
  exact congrArg₂ Rendered.mk htext hnoted

section Visits

variable {f : α → Link β} {homes : α → List Home} {out : (Home → Option String) → α → β}
  (hf : ∀ a, Writes e (f a) (homes a) fun q => out q a)
include hf

protected theorem mapM (as : List α) :
    Writes e (as.mapM f) (as.flatMap homes) fun q => as.map (out q) := by
  induction as with
  | nil => exact .pure []
  | cons a as ih =>
      rw [List.mapM_cons]
      exact (hf a).bind fun b => ih.map _

theorem ofSlot (s : Slot α) :
    Writes e (s.mapM f) (s.all.flatMap homes) fun q => s.map (out q) := by
  cases s with
  | mk field expanded =>
      cases expanded with
      | none =>
          have h := (hf field).map fun b => (⟨b, none⟩ : Slot β)
          rw [← List.flatMap_singleton homes field] at h
          exact h
      | some as =>
          exact (hf field).bind fun b =>
            (Writes.mapM hf as).map fun bs => (⟨b, some bs⟩ : Slot β)

theorem ofStructure (s : Structure α) :
    Writes e (s.mapM fun _ => f) (s.allFields.flatMap homes) fun q => s.map (out q) := by
  have h := (Writes.mapM (ofSlot hf) s.slots).map fun slots =>
    ({ s with slots := slots } : Structure β)
  rwa [← List.flatMap_assoc] at h

theorem ofStructures (l : StructureLists α) :
    Writes e (l.mapM fun _ => f) (l.all.flatMap fun s => s.allFields.flatMap homes)
      fun q => l.map (out q) := by
  have h := (Writes.mapM (ofStructure hf) l.structs).bind fun structs =>
    (Writes.mapM (ofStructure hf) l.unions).bind fun unions =>
      (Writes.mapM (ofStructure hf) l.exceptions).bind fun exceptions =>
        (Writes.mapM (ofStructure hf) l.madeUp).map fun madeUp =>
          (⟨structs, unions, exceptions, madeUp⟩ : StructureLists β)
  rw [StructureLists.all, List.flatMap_append, List.flatMap_append, List.flatMap_append,
    List.append_assoc, List.append_assoc]
  exact h

end Visits

end Writes

theorem writes_type (t : TypeExpr) :
    Writes e (e.type t) t.homes fun q => t.written e.language q :=
  .rendered (renders_typeText e t)

theorem writes_value (t : TypeExpr) (text : String) (v : ValueExpr) :
    Writes e (e.value t text v) (v.homes t) fun q => v.written e.language q t text :=
  .rendered (renders_valueText e t text v)

/-- Parameters ask for the homes of their types. -/
theorem writes_params (names : List NamedParam) (types : List TypeExpr) :
    Writes e (e.params names types) ((names.zip types).flatMap fun p => p.2.homes) fun q =>
      (names.zip types).map fun p => { p.1 with type := p.2.written e.language q } := by
  have hparam : ∀ p : NamedParam × TypeExpr,
      Writes e (do return ({ p.1 with type := ← e.type p.2 } : Param)) p.2.homes
        fun q => { p.1 with type := p.2.written e.language q } :=
    fun p => (writes_type e p.2).map fun type => ({ p.1 with type := type } : Param)
  exact .mapM hparam _

theorem writes_field (f : ResolvedField) :
    Writes e (e.field f) f.homes fun q => f.written e.language q := by
  cases hv : f.valueExpr with
  | none =>
      have h := (writes_type e f.typeExpr).map fun plain => ({ f.toNamedField with
        type := ⟨e.language.fieldType plain.text f.typeExpr.underlying f.decl.isOptional,
          plain.qualifiers⟩
        plainType := plain
        value := ⟨e.language.zeroValue f.typeExpr.underlying plain.text, []⟩
        hasDefault := false } : Field)
      simpa [field, hv, ResolvedField.homes, ResolvedField.written, ResolvedField.typing,
        TypeExpr.written] using h
  | some v =>
      have h := (writes_type e f.typeExpr).bind fun plain =>
        (writes_value e f.typeExpr plain.text v).map fun value => ({ f.toNamedField with
          type := ⟨e.language.fieldType plain.text f.typeExpr.underlying f.decl.isOptional,
            plain.qualifiers⟩
          plainType := plain
          value := value
          hasDefault := true } : Field)
      simpa [field, hv, ResolvedField.homes, ResolvedField.written, ResolvedField.typing,
        TypeExpr.written] using h

end RenderEnv

end IdlScope

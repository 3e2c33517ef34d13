import IdlScope.Proofs.Aliases
import IdlScope.Proofs.Stages

/-!
# Mentions — an alias that is noted stands in the text

Rendering notes the alias of every home that a text asks for, and the import of a noted alias
stays in use. The alias is handed to the language, which composes the text from the texts of its
parts and may leave a part out. A document does so twice: a map type does not spell its keys, and
an enum value stands for itself without the file of its enum.

* **`TypeExpr.shown`**, **`ValueExpr.shown`** — the homes whose qualifiers a language writes.
* **`TypeExpr.occurs_spell`**, **`ValueExpr.occurs_spell`** — the qualifier of a shown home occurs
  in the text, however deep it is nested.
* **`TypeExpr.shown_eq_homes`**, **`ValueExpr.mem_homes`** — Go and TypeScript show all homes, those
  of the elements of a value in the text of its type.
* **`qualifiers_occur`** — what is noted with a text occurs in it or with it, documents apart, and
  in finished files every import in use is mentioned by a text.
-/

namespace IdlScope

/-! ## Parts of texts -/

namespace Text

/-- The text contains the part. -/
def Occurs (part text : String) : Prop :=
  part.toList <:+: text.toList

instance (part text : String) : Decidable (Occurs part text) :=
  inferInstanceAs (Decidable (part.toList <:+: text.toList))

variable {part s t : String}

theorem occurs_self (s : String) : Occurs s s :=
  List.infix_refl _

theorem Occurs.left (h : Occurs part s) (t : String) : Occurs part (s ++ t) := by
  rw [Occurs, String.toList_append]
  exact h.trans (List.prefix_append _ _).isInfix

theorem Occurs.right (h : Occurs part t) (s : String) : Occurs part (s ++ t) := by
  rw [Occurs, String.toList_append]
  exact h.trans (List.suffix_append _ _).isInfix

theorem Occurs.intercalate {sep : String} {items : List String} (h : Occurs part s)
    (hs : s ∈ items) : Occurs part (sep.intercalate items) := by
  induction items with
  | nil => exact absurd hs List.not_mem_nil
  | cons item items ih =>
      cases items with
      | nil =>
          rw [List.mem_singleton] at hs
          subst hs
          rw [String.intercalate_singleton]
          exact h
      | cons next items =>
          rw [String.intercalate_cons_cons]
          rcases List.mem_cons.mp hs with rfl | hs
          · exact (h.left _).left _
          · exact (ih hs).right _

/-- A part without the character stays when the text loses its leading run of it. -/
theorem Occurs.dropLeading {c : Char} (hc : c ∉ part.toList) (h : Occurs part s) :
    Occurs part (Text.dropLeading c s) := by
  obtain ⟨front, back, heq⟩ := h
  rw [Occurs, Text.dropLeading, String.toList_ofList, ← heq, List.append_assoc,
    List.dropWhile_append]
  have hkept : (part.toList ++ back).dropWhile (· == c) = part.toList ++ back ∨
      part.toList = [] := by
    cases hpart : part.toList with
    | nil => exact .inr rfl
    | cons d ds =>
        have hd : d ≠ c := by
          rintro rfl
          exact hc (hpart ▸ List.mem_cons_self)
        rw [List.cons_append, List.dropWhile_cons, if_neg (by simpa using hd)]
        exact .inl rfl
  split
  · rcases hkept with hkept | hnil
    · rw [hkept]
      exact (List.prefix_append _ _).isInfix
    · rw [hnil]
      exact List.nil_infix
  · exact ⟨_, back, List.append_assoc _ _ _⟩

end Text

open Text

/-! ## What the languages write -/

namespace Language

theorem occurs_qualify (q name : String) : Occurs q (qualify (some q) name) :=
  ((occurs_self q).left _).left _

variable (g : Language) {part : String}

theorem occurs_declaredType (q name : String) (underlying : Category) :
    Occurs q (g.declaredType (some q) name underlying) := by
  cases g with
  | go =>
      show Occurs q (if underlying.isStructLike then "*" ++ qualify (some q) name
        else qualify (some q) name)
      split
      · exact (occurs_qualify q name).right _
      · exact occurs_qualify q name
  | typescript => exact occurs_qualify q name
  | openApi =>
      show Occurs q (q ++ ".yaml#/components/schemas/" ++ name)
      exact ((occurs_self q).left _).left _

theorem occurs_listType {item : String} (h : Occurs part item) : Occurs part (g.listType item) := by
  cases g with
  | go => exact h.right _
  | typescript | openApi => exact (h.right _).left _

theorem occurs_setType {item : String} (h : Occurs part item) : Occurs part (g.setType item) := by
  cases g with
  | go => exact h.right _
  | typescript | openApi => exact (h.right _).left _

theorem occurs_mapType_value (key : String) {value : String} (h : Occurs part value) :
    Occurs part (g.mapType key value) := by
  cases g with
  | go => exact h.right _
  | typescript | openApi => exact (h.right _).left _

variable {g} in
/-- A language with map types that spell their keys. -/
theorem occurs_mapType_key (hg : g ≠ .openApi) {key : String} (value : String)
    (h : Occurs part key) : Occurs part (g.mapType key value) := by
  cases g with
  | go => exact ((h.right _).left _).left _
  | typescript => exact (((h.right _).left _).left _).left _
  | openApi => exact absurd rfl hg

theorem occurs_fieldType {text : String} (underlying : Category) (optional : Bool)
    (h : Occurs part text) : Occurs part (g.fieldType text underlying optional) := by
  cases g with
  | go =>
      rw [fieldType]
      split
      · exact h.right _
      · exact h
  | typescript =>
      rw [fieldType]
      split
      · exact h.left _
      · exact h
  | openApi => exact h

theorem occurs_aliasType {text : String} (hstar : '*' ∉ part.toList) (h : Occurs part text) :
    Occurs part (g.aliasType text) := by
  cases g with
  | go => exact h.dropLeading hstar
  | typescript | openApi => exact h

theorem occurs_listLiteral (type : String) {item : String} {items : List String}
    (hitem : item ∈ items) (h : Occurs part item) : Occurs part (g.listLiteral type items) := by
  have hitems : Occurs part (", ".intercalate items) := h.intercalate hitem
  cases g with
  | go | openApi => exact (hitems.right _).left _
  | typescript =>
      rw [listLiteral]
      split <;> exact (hitems.right _).left _

theorem occurs_mapLiteral (type : String) {entry : String × String}
    {entries : List (String × String)} (hentry : entry ∈ entries)
    (h : Occurs part entry.1 ∨ Occurs part entry.2) : Occurs part (g.mapLiteral type entries) := by
  cases g with
  | go | openApi =>
      refine (Occurs.right (Occurs.intercalate ?_ (List.mem_map_of_mem hentry)) _).left _
      rcases h with h | h
      · exact (h.left _).left _
      · exact h.right _
  | typescript =>
      refine (Occurs.right (Occurs.intercalate ?_ (List.mem_map_of_mem hentry)) _).left _
      rcases h with h | h
      · exact ((h.right _).left _).left _
      · exact h.right _

end Language

/-! ## Homes that are shown -/

namespace TypeExpr

/-- The homes whose qualifiers the text of a type has. -/
def shown (g : Language) : TypeExpr → List Home
  | .base _ => []
  | .list t => t.shown g
  | .set t => t.shown g
  | .map k v =>
    match g with
    | .openApi => v.shown g
    | .go | .typescript => k.shown g ++ v.shown g
  | .declared home _ _ => [home]

/-- Go and TypeScript spell a type with all its names. -/
theorem shown_eq_homes {g : Language} (hg : g ≠ .openApi) (t : TypeExpr) : t.shown g = t.homes := by
  induction t with
  | base c => rfl
  | list t ih => exact ih
  | set t ih => exact ih
  | map k v ihk ihv =>
      rw [homes, ← ihk, ← ihv]
      cases g with
      | go | typescript => rfl
      | openApi => exact absurd rfl hg
  | declared home name underlying => rfl

/-- The qualifier of a home that is shown occurs in the text. -/
theorem occurs_spell {g : Language} {q : Home → Option String} {a : String} (t : TypeExpr) :
    ∀ h ∈ t.shown g, q h = some a → Occurs a (t.spell g q) := by
  induction t with
  | base c =>
      intro h hh
      exact absurd hh List.not_mem_nil
  | list t ih =>
      intro h hh hq
      exact g.occurs_listType (ih h hh hq)
  | set t ih =>
      intro h hh hq
      exact g.occurs_setType (ih h hh hq)
  | map k v ihk ihv =>
      intro h hh hq
      by_cases hg : g = .openApi
      · subst hg
        exact Language.openApi.occurs_mapType_value _ (ihv h hh hq)
      · rw [shown_eq_homes hg, homes, ← shown_eq_homes hg k, ← shown_eq_homes hg v] at hh
        rcases List.mem_append.mp hh with hh | hh
        · exact Language.occurs_mapType_key hg _ (ihk h hh hq)
        · exact g.occurs_mapType_value _ (ihv h hh hq)
  | declared home name underlying =>
      intro h hh hq
      rw [List.mem_singleton.mp hh] at hq
      rw [spell, hq]
      exact g.occurs_declaredType a name underlying

end TypeExpr

namespace ValueExpr

mutual

/-- The homes whose qualifiers the text of a value has. -/
def shown (g : Language) : ValueExpr → List Home
  | .int _ => []
  | .double _ => []
  | .literal _ => []
  | .bool _ => []
  | .enumValue home _ _ =>
    match g with
    | .openApi => []
    | .go | .typescript => [home]
  | .constant home _ => [home]
  | .list items => itemsShown g items
  | .map entries => entriesShown g entries
termination_by structural v => v

/-- The homes that the items of a list show. -/
def itemsShown (g : Language) : List ValueExpr → List Home
  | [] => []
  | v :: vs => shown g v ++ itemsShown g vs
termination_by structural vs => vs

/-- The homes that the entries of a map show. -/
def entriesShown (g : Language) : List (ValueExpr × ValueExpr) → List Home
  | [] => []
  | e :: es => pairShown g e ++ entriesShown g es
termination_by structural es => es

/-- The homes that the key and the value of an entry show. -/
def pairShown (g : Language) : ValueExpr × ValueExpr → List Home
  | (k, v) => shown g k ++ shown g v
termination_by structural e => e

end

section Occurring

variable {g : Language} {q : Home → Option String} {a : String}

mutual

/-- The qualifier of a home that is shown occurs in the text. -/
theorem occurs_spell (t : TypeExpr) (text : String) :
    ∀ v : ValueExpr, ∀ h ∈ v.shown g, q h = some a → Occurs a (v.spell g q t text)
  | .int _, h, hh, _ => absurd hh List.not_mem_nil
  | .double _, h, hh, _ => absurd hh List.not_mem_nil
  | .literal _, h, hh, _ => absurd hh List.not_mem_nil
  | .bool _, h, hh, _ => absurd hh List.not_mem_nil
  | .enumValue home enumName valueName, h, hh, hq => by
    cases g with
    | go =>
        rw [List.mem_singleton.mp hh] at hq
        rw [spell, hq]
        exact Language.occurs_qualify a valueName
    | typescript =>
        rw [List.mem_singleton.mp hh] at hq
        rw [spell, hq]
        exact ((Language.occurs_qualify a enumName).left _).left _
    | openApi => exact absurd hh List.not_mem_nil
  | .constant home name, h, hh, hq => by
    rw [List.mem_singleton.mp hh] at hq
    rw [spell, hq]
    exact Language.occurs_qualify a name
  | .list items, h, hh, hq => by
    obtain ⟨item, hitem, hoccurs⟩ := occurs_spellItems t.item (t.item.spell g q) items h hh hq
    exact g.occurs_listLiteral text hitem hoccurs
  | .map entries, h, hh, hq => by
    obtain ⟨entry, hentry, hoccurs⟩ := occurs_spellEntries t.keyAndValue
      (t.keyAndValue.1.spell g q) (t.keyAndValue.2.spell g q) entries h hh hq
    exact g.occurs_mapLiteral text hentry hoccurs
termination_by structural v => v

theorem occurs_spellItems (t : TypeExpr) (text : String) :
    ∀ vs : List ValueExpr, ∀ h ∈ itemsShown g vs, q h = some a →
      ∃ item ∈ spellItems g q t text vs, Occurs a item
  | [], h, hh, _ => absurd hh List.not_mem_nil
  | v :: vs, h, hh, hq => by
    rcases List.mem_append.mp hh with hh | hh
    · exact ⟨_, List.mem_cons_self, occurs_spell t text v h hh hq⟩
    · obtain ⟨item, hitem, hoccurs⟩ := occurs_spellItems t text vs h hh hq
      exact ⟨item, List.mem_cons_of_mem _ hitem, hoccurs⟩
termination_by structural vs => vs

theorem occurs_spellEntries (t : TypeExpr × TypeExpr) (keyType valueType : String) :
    ∀ es : List (ValueExpr × ValueExpr), ∀ h ∈ entriesShown g es, q h = some a →
      ∃ e ∈ spellEntries g q t keyType valueType es, Occurs a e.1 ∨ Occurs a e.2
  | [], h, hh, _ => absurd hh List.not_mem_nil
  | e :: es, h, hh, hq => by
    rcases List.mem_append.mp hh with hh | hh
    · exact ⟨_, List.mem_cons_self, occurs_spellPair t keyType valueType e h hh hq⟩
    · obtain ⟨entry, hentry, hoccurs⟩ := occurs_spellEntries t keyType valueType es h hh hq
      exact ⟨entry, List.mem_cons_of_mem _ hentry, hoccurs⟩
termination_by structural es => es

theorem occurs_spellPair (t : TypeExpr × TypeExpr) (keyType valueType : String) :
    ∀ e : ValueExpr × ValueExpr, ∀ h ∈ pairShown g e, q h = some a →
      Occurs a (spellPair g q t keyType valueType e).1 ∨
        Occurs a (spellPair g q t keyType valueType e).2
  | (k, v), h, hh, hq => by
    rcases List.mem_append.mp hh with hh | hh
    · exact .inl (occurs_spell t.1 keyType k h hh hq)
    · exact .inr (occurs_spell t.2 valueType v h hh hq)
termination_by structural e => e

end

end Occurring

section Asking

variable {g : Language}

mutual

/-- In Go and TypeScript a value asks for no home that neither it nor its type shows. -/
theorem mem_homes (hg : g ≠ .openApi) (t : TypeExpr) :
    ∀ v : ValueExpr, ∀ h ∈ v.homes t, h ∈ t.homes ∨ h ∈ v.shown g
  | .int _, h, hh => absurd hh List.not_mem_nil
  | .double _, h, hh => absurd hh List.not_mem_nil
  | .literal _, h, hh => absurd hh List.not_mem_nil
  | .bool _, h, hh => absurd hh List.not_mem_nil
  | .enumValue home _ _, h, hh => by
    cases g with
    | go | typescript => exact .inr hh
    | openApi => exact absurd rfl hg
  | .constant home _, h, hh => .inr hh
  | .list items, h, hh => by
    rcases List.mem_append.mp hh with hh | hh
    · exact .inl (t.homes_item h hh)
    · exact (mem_itemHomes hg t.item items h hh).imp_left (t.homes_item h)
  | .map entries, h, hh => by
    rcases List.mem_append.mp hh with hh | hh
    · exact .inl (t.homes_keyAndValue.1 h hh)
    · rcases List.mem_append.mp hh with hh | hh
      · exact .inl (t.homes_keyAndValue.2 h hh)
      · exact (mem_entryHomes hg t.keyAndValue entries h hh).imp_left
          (Or.rec (t.homes_keyAndValue.1 h) (t.homes_keyAndValue.2 h))
termination_by structural v => v

theorem mem_itemHomes (hg : g ≠ .openApi) (t : TypeExpr) :
    ∀ vs : List ValueExpr, ∀ h ∈ itemHomes t vs, h ∈ t.homes ∨ h ∈ itemsShown g vs
  | [], h, hh => absurd hh List.not_mem_nil
  | v :: vs, h, hh => by
    rcases List.mem_append.mp hh with hh | hh
    · exact (mem_homes hg t v h hh).imp_right (List.mem_append_left _)
    · exact (mem_itemHomes hg t vs h hh).imp_right (List.mem_append_right _)
termination_by structural vs => vs

theorem mem_entryHomes (hg : g ≠ .openApi) (t : TypeExpr × TypeExpr) :
    ∀ es : List (ValueExpr × ValueExpr), ∀ h ∈ entryHomes t es,
      (h ∈ t.1.homes ∨ h ∈ t.2.homes) ∨ h ∈ entriesShown g es
  | [], h, hh => absurd hh List.not_mem_nil
  | e :: es, h, hh => by
    rcases List.mem_append.mp hh with hh | hh
    · exact (mem_pairHomes hg t e h hh).imp_right (List.mem_append_left _)
    · exact (mem_entryHomes hg t es h hh).imp_right (List.mem_append_right _)
termination_by structural es => es

theorem mem_pairHomes (hg : g ≠ .openApi) (t : TypeExpr × TypeExpr) :
    ∀ e : ValueExpr × ValueExpr, ∀ h ∈ pairHomes t e,
      (h ∈ t.1.homes ∨ h ∈ t.2.homes) ∨ h ∈ pairShown g e
  | (k, v), h, hh => by
    rcases List.mem_append.mp hh with hh | hh
    · exact (mem_homes hg t.1 k h hh).imp Or.inl (List.mem_append_left _)
    · exact (mem_homes hg t.2 v h hh).imp Or.inr (List.mem_append_right _)
termination_by structural e => e

end

end Asking

end ValueExpr

/-! ## What is noted with a text -/

section Written

variable {g : Language} {q : Home → Option String} {a : String}

/-- What is noted with a type occurs in its text, but for a document that shows no home with this
alias. -/
theorem TypeExpr.occurs_written {t : TypeExpr} (ha : a ∈ (t.written g q).qualifiers) :
    Occurs a (t.written g q).text ∨ g = .openApi ∧ ∀ h ∈ t.shown .openApi, q h ≠ some a := by
  obtain ⟨h, hh, hq⟩ := List.mem_map.mp (mem_written_type.mp ha)
  by_cases hshown : ∃ h ∈ t.shown g, q h = some a
  · obtain ⟨h, hh, hq⟩ := hshown
    exact .inl (t.occurs_spell h hh hq)
  · by_cases hg : g = .openApi
    · subst hg
      exact .inr ⟨rfl, fun h hh hq => hshown ⟨h, hh, hq⟩⟩
    · rw [t.shown_eq_homes hg] at hshown
      exact absurd ⟨h, hh, hq⟩ hshown

/-- What is noted with a value occurs in its text or in the one of its type, but for a document in
which neither shows a home with this alias. -/
theorem ValueExpr.occurs_written {t : TypeExpr} {text : String} {v : ValueExpr}
    (ha : a ∈ (v.written g q t text).qualifiers) :
    Occurs a (v.written g q t text).text ∨ Occurs a (t.written g q).text ∨
      g = .openApi ∧ ∀ h ∈ v.shown .openApi ++ t.shown .openApi, q h ≠ some a := by
  obtain ⟨h, hh, hq⟩ := List.mem_map.mp (mem_written_value.mp ha)
  by_cases hvalue : ∃ h ∈ v.shown g, q h = some a
  · obtain ⟨h, hh, hq⟩ := hvalue
    exact .inl (v.occurs_spell t text h hh hq)
  · by_cases htype : ∃ h ∈ t.shown g, q h = some a
    · obtain ⟨h, hh, hq⟩ := htype
      exact .inr (.inl (t.occurs_spell h hh hq))
    · by_cases hg : g = .openApi
      · subst hg
        refine .inr (.inr ⟨rfl, fun h hh hq => ?_⟩)
        rcases List.mem_append.mp hh with hh | hh
        · exact hvalue ⟨h, hh, hq⟩
        · exact htype ⟨h, hh, hq⟩
      · rw [t.shown_eq_homes hg] at htype
        rcases v.mem_homes hg t h hh with hh | hh
        · exact absurd ⟨h, hh, hq⟩ htype
        · exact absurd ⟨h, hh, hq⟩ hvalue

end Written

namespace RenderEnv

variable (e : RenderEnv) (t : TypeExpr) (k : Linkage)

/-- A type is written under the aliases of every later linkage. -/
theorem type_eq_written {later : Linkage} (hle : (e.type t k).2 ≤ later) :
    (e.type t k).1 = t.written e.language (e.answer later) := by
  have hwrites := writes_type e t
  have hvisit : (e.type t k).2 = e.visit k t.homes := hwrites.linkage k
  exact hwrites.result k _ (answer_of_visit_le e (hvisit ▸ hle))

theorem value_eq_written (text : String) (v : ValueExpr) {later : Linkage}
    (hle : (e.value t text v k).2 ≤ later) :
    (e.value t text v k).1 = v.written e.language (e.answer later) t text := by
  have hwrites := writes_value e t text v
  have hvisit : (e.value t text v k).2 = e.visit k (v.homes t) := hwrites.linkage k
  exact hwrites.result k _ (answer_of_visit_le e (hvisit ▸ hle))

theorem le_value (text : String) (v : ValueExpr) : k ≤ (e.value t text v k).2 := by
  have hvisit : (e.value t text v k).2 = e.visit k (v.homes t) :=
    (writes_value e t text v).linkage k
  rw [hvisit]
  exact e.le_visit k _

end RenderEnv

/-! ## Finished files -/

/-- What is noted with the text occurs in it. -/
def Rendered.Shown (r : Rendered) : Prop :=
  ∀ a ∈ r.qualifiers, Occurs a r.text

/-- What is noted with a text of the file occurs in it; with a value, in it or in the text of its
type. -/
structure Scope.Shown (s : Scope) : Prop where
  types : ∀ st ∈ s.structures.all, ∀ f ∈ st.allFields, f.type.Shown ∧ f.plainType.Shown
  values : ∀ st ∈ s.structures.all, ∀ f ∈ st.allFields, ∀ a ∈ f.value.qualifiers,
    Occurs a f.value.text ∨ Occurs a f.type.text
  typedefs : ∀ t ∈ s.typedefs, t.type.Shown
  constants : ∀ c ∈ s.constants, c.type.Shown ∧ ∀ a ∈ c.init.qualifiers,
    Occurs a c.init.text ∨ Occurs a c.type.text
  functions : ∀ v ∈ s.services, ∀ f ∈ v.functions, (∀ p ∈ f.arguments, p.type.Shown) ∧
    (∀ r, f.response = some r → r.Shown) ∧ ∀ p ∈ f.throws, p.type.Shown

/-- The part occurs in the type of an argument or an exception, or in the response. -/
def Function.Shows (f : Function) (a : String) : Prop :=
  (∃ p ∈ f.arguments, Occurs a p.type.text) ∨
  (∃ r, f.response = some r ∧ Occurs a r.text) ∨
  ∃ p ∈ f.throws, Occurs a p.type.text

/-- The part occurs in a text of the output: of a field that generated code has, of a typedef, of
a constant, or of a function, or it qualifies the base of a service. -/
def Scope.Shows (s : Scope) (a : String) : Prop :=
  (∃ st ∈ s.structures.all, ∃ f ∈ st.flattenedFields,
    Occurs a f.type.text ∨ Occurs a f.plainType.text ∨ Occurs a f.value.text) ∨
  (∃ t ∈ s.typedefs, Occurs a t.type.text) ∨
  (∃ c ∈ s.constants, Occurs a c.type.text ∨ Occurs a c.init.text) ∨
  (∃ v ∈ s.services, ∃ base, v.base = some base ∧ base.qualifier = some a) ∨
  ∃ v ∈ s.services, ∃ f ∈ v.functions, f.Shows a

/-- Where all that is noted is shown, the output shows all that it mentions. -/
theorem Scope.Shown.shows {s : Scope} (h : s.Shown) {a : String} (ha : s.Mentions a) :
    s.Shows a := by
  rcases ha with ⟨st, hst, f, hf, ha⟩ | ⟨t, ht, ha⟩ | ⟨c, hc, ha⟩ | hbase | ⟨v, hv, f, hf, ha⟩
  · have hall := Structure.mem_allFields_of_flattened hf
    refine .inl ⟨st, hst, f, hf, ?_⟩
    rcases ha with ha | ha | ha
    · exact .inl ((h.types st hst f hall).1 a ha)
    · exact .inr (.inl ((h.types st hst f hall).2 a ha))
    · rcases h.values st hst f hall a ha with ha | ha
      · exact .inr (.inr ha)
      · exact .inl ha
  · exact .inr (.inl ⟨t, ht, h.typedefs t ht a ha⟩)
  · refine .inr (.inr (.inl ⟨c, hc, ?_⟩))
    rcases ha with ha | ha
    · exact .inl ((h.constants c hc).1 a ha)
    · exact ((h.constants c hc).2 a ha).symm
  · exact .inr (.inr (.inr (.inl hbase)))
  · refine .inr (.inr (.inr (.inr ⟨v, hv, f, hf, ?_⟩)))
    obtain ⟨harguments, hresponse, hthrows⟩ := h.functions v hv f hf
    rcases ha with ⟨p, hp, ha⟩ | ⟨r, hr, ha⟩ | ⟨p, hp, ha⟩
    · exact .inl ⟨p, hp, harguments p hp a ha⟩
    · exact .inr (.inl ⟨r, hr, hresponse r hr a ha⟩)
    · exact .inr (.inr ⟨p, hp, hthrows p hp a ha⟩)

section Plain

variable {g : Language} (hg : g ≠ .openApi) {q : Home → Option String}
include hg

theorem TypeExpr.shown_written (t : TypeExpr) : (t.written g q).Shown := by
  intro a ha
  rcases t.occurs_written ha with ha | ⟨hopen, -⟩
  · exact ha
  · exact absurd hopen hg

theorem ValueExpr.shown_written {t : TypeExpr} {text : String} {v : ValueExpr} :
    ∀ a ∈ (v.written g q t text).qualifiers,
      Occurs a (v.written g q t text).text ∨ Occurs a (t.written g q).text := by
  intro a ha
  rcases v.occurs_written ha with ha | ha | ⟨hopen, -⟩
  · exact .inl ha
  · exact .inr ha
  · exact absurd hopen hg

theorem ResolvedField.shown_written (f : ResolvedField) :
    (f.written g q).type.Shown ∧ (f.written g q).plainType.Shown ∧
      ∀ a ∈ (f.written g q).value.qualifiers,
        Occurs a (f.written g q).value.text ∨ Occurs a (f.written g q).type.text := by
  have htype : ∀ a, Occurs a (f.typeExpr.spell g q) → Occurs a (f.written g q).type.text :=
    fun a ha => g.occurs_fieldType _ _ ha
  have hplain := f.typeExpr.shown_written hg (q := q)
  refine ⟨fun a ha => htype a (hplain a ha), hplain, ?_⟩
  intro a ha
  cases hv : f.valueExpr with
  | none =>
      rw [value_of_none hv] at ha
      exact absurd ha List.not_mem_nil
  | some v =>
      rw [value_of_some hv] at ha ⊢
      exact (v.shown_written hg a ha).imp_right (htype a)

theorem RenderEnv.shown_writtenParams (l : Library) (names : List NamedParam)
    (types : List TypeExpr) : ∀ p ∈ writtenParams ⟨g, l⟩ q names types, p.type.Shown := by
  intro p hp
  obtain ⟨_, -, rfl⟩ := List.mem_map.mp hp
  exact TypeExpr.shown_written hg _

end Plain

/-- **A finished file shows all that is noted with its texts**, in Go and in TypeScript. -/
theorem Scope.Built.shown {s : Scope} {o : Options} {t : Tree} {l : Library} {k : Linkage}
    (h : s.Built o t l k) (ho : o.language ≠ .openApi) (hl : l.Packaged o) : s.Shown := by
  obtain ⟨r, resolved, done, found, hcomes, hsteps, htypedefs, -⟩ := h.steps
  have hfields : ∀ st ∈ s.structures.all, ∀ f ∈ st.allFields, ∃ f' : ResolvedField,
      f = f'.written o.language (RenderEnv.answer ⟨o.language, l⟩ s.linkage) := by
    intro st hst f hf
    rw [hcomes.structures, StructureLists.all_map] at hst
    obtain ⟨st, -, rfl⟩ := List.mem_map.mp hst
    rw [Structure.allFields_map] at hf
    obtain ⟨f', -, rfl⟩ := List.mem_map.mp hf
    exact ⟨f', rfl⟩
  constructor
  · intro st hst f hf
    obtain ⟨f', rfl⟩ := hfields st hst f hf
    obtain ⟨htype, hplain, -⟩ := f'.shown_written ho
    exact ⟨htype, hplain⟩
  · intro st hst f hf
    obtain ⟨f', rfl⟩ := hfields st hst f hf
    exact (f'.shown_written ho).2.2
  · intro d hd a ha
    -- the right-hand side may lose a star, and an alias in use has none
    have hstar : '*' ∉ a.toList := by
      have hused := (h.marked.used a).mpr (.inr (.inl ⟨d, hd, ha⟩))
      obtain ⟨i, hi, -, rfl⟩ := ImportTable.mem_usedNames.mp hused
      exact (h.plain_aliases ho hl i hi).star
    obtain ⟨named, -, k₁, k₂, -, hrun, hle⟩ :=
      exists_of_mem_forall₂ hsteps.typedefs (htypedefs ▸ hd)
    obtain ⟨target, -, -, htext⟩ := RenderEnv.typedef_eq_ok hrun
    obtain rfl := htext _ hle
    exact o.language.occurs_aliasType hstar (target.shown_written ho a ha)
  · intro c hc
    obtain ⟨k₁, type, value, -, -, -, -, htype, hinit⟩ := h.constant_resolved hc
    rw [hinit, htype]
    exact ⟨type.shown_written ho, value.shown_written ho⟩
  · intro v hv f hf
    obtain ⟨r, resolved, structures, k₁, k₂, -, -, -, -, named, -, hrun⟩ := h.function_step hv hf
    obtain ⟨arguments, response, throws, -, -, -, -, htext⟩ := RenderEnv.function_eq_ok hrun
    rw [htext k₂ le_rfl]
    refine ⟨RenderEnv.shown_writtenParams ho l _ _, ?_, RenderEnv.shown_writtenParams ho l _ _⟩
    intro r hr
    obtain ⟨t, -, rfl⟩ := Option.map_eq_some_iff.mp hr
    exact t.shown_written ho

/-- **What is noted with a text is mentioned**, but for two parts that a document leaves out.
Whatever type is written, from whatever linkage, every alias that is noted with it occurs in its
text; and every alias that is noted with a value occurs in its text or in the one of its type. Only
a document may note more, and then neither text shows a home with this alias: it stands for the key
of a map or for the enum of a value. So in every finished file of Go or TypeScript all that is noted
with a text is shown, and every import in use occurs in the output. -/
theorem qualifiers_occur (o : Options) (requests : List Request) :
    (∀ (e : RenderEnv) (t : TypeExpr) (k : Linkage), ∀ a ∈ (e.type t k).1.qualifiers,
      Occurs a (e.type t k).1.text ∨ e.language = .openApi ∧
        ∀ h ∈ t.shown .openApi, e.answer (e.type t k).2 h ≠ some a) ∧
    (∀ (e : RenderEnv) (t : TypeExpr) (v : ValueExpr) (k : Linkage),
      let type := e.type t k
      let value := e.value t type.1.text v type.2
      ∀ a ∈ value.1.qualifiers, Occurs a value.1.text ∨ Occurs a type.1.text ∨
        e.language = .openApi ∧
          ∀ h ∈ v.shown .openApi ++ t.shown .openApi, e.answer value.2 h ≠ some a) ∧
    (o.language ≠ .openApi → ∀ file s,
      ((Run.new o).serveAll requests).library.scope? file = some s →
        s.Shown ∧ ∀ i ∈ s.linkage.imports.imports, i.used = true → s.Shows i.name) := by
  refine ⟨?_, ?_, ?_⟩
  · intro e t k a ha
    rw [e.type_eq_written t k le_rfl] at ha ⊢
    exact t.occurs_written ha
  · intro e t v k type value a ha
    -- the type was written before the value, and its aliases are still the same
    have htype : type.1 = t.written e.language (e.answer value.2) :=
      e.type_eq_written t k (e.le_value t type.2 type.1.text v)
    have hvalue : value.1 = v.written e.language (e.answer value.2) t type.1.text :=
      e.value_eq_written t type.2 type.1.text v le_rfl
    rw [hvalue] at ha
    have hoccurs := v.occurs_written ha
    rw [← hvalue, ← htype] at hoccurs
    exact hoccurs
  · intro ho file s hs
    have hlibrary := Run.sound_serveAll o requests
    obtain ⟨t, l, k, -, hle, hbuilt⟩ := hlibrary.built file s hs
    have hshown := hbuilt.shown ho fun file u hu => hlibrary.packaged file u (hle file u hu)
    refine ⟨hshown, fun i hi hused => hshown.shows ?_⟩
    exact (import_used_iff o requests hs hi).mp hused

set_option maxRecDepth 100000 in
/-- The holder notes the alias of its color and shows it. -/
theorem qualifiers_occur_holder : ∃ s, ∃ st ∈ s.structures.all, ∃ f ∈ st.allFields,
    (Sample.library {}).scope? "user.thrift" = some s ∧
      (∃ a ∈ f.plainType.qualifiers, Occurs a f.plainType.text) ∧
      (∃ a ∈ f.value.qualifiers, Occurs a f.value.text ∨ Occurs a f.type.text) ∧
      ∃ i ∈ s.linkage.imports.imports, i.used = true ∧ s.Shows i.name := by
  have hfound : ((Sample.library {}).scope? "user.thrift").any
      (fun s => (s.linkage.imports.imports.any fun i => i.used) &&
        s.structures.all.any fun st => st.allFields.any fun f =>
          f.plainType.qualifiers == ["base"] && f.value.qualifiers == ["base"]) = true := by
    decide +kernel
  obtain ⟨s, hs, hfound⟩ := (Option.any_eq_true _ _).mp hfound
  simp only [List.any_eq_true, Bool.and_eq_true, beq_iff_eq] at hfound
  obtain ⟨⟨i, hi, hused⟩, st, hst, f, hf, htype, hvalue⟩ := hfound
  obtain ⟨-, -, hfiles⟩ := qualifiers_occur {} [.build Sample.user]
  obtain ⟨hshown, himports⟩ := hfiles (by decide) "user.thrift" s hs
  refine ⟨s, st, hst, f, hf, hs, ⟨"base", ?_, (hshown.types st hst f hf).2 "base" ?_⟩,
    ⟨"base", ?_, hshown.values st hst f hf "base" ?_⟩, i, hi, hused, himports i hi hused⟩
  · rw [htype]
    exact List.mem_singleton_self _
  · rw [htype]
    exact List.mem_singleton_self _
  · rw [hvalue]
    exact List.mem_singleton_self _
  · rw [hvalue]
    exact List.mem_singleton_self _

/-- Names for the colors of another file, and the number of one of them. -/
def Sample.palette : Tree where
  document := { Document.empty "palette.thrift" with
    structs := [⟨"struct", "Palette",
      [⟨1, "names", .default,
          ⟨"map", .map, some (.named "base.Color" .enum), some (.named "string" .string), none, []⟩,
          none, []⟩,
        ⟨2, "first", .default, .named "i32" .i32, some (.identifier "base.Color.RED"), []⟩], [],
      none⟩] }
  includes := [⟨"base.thrift", true, Sample.base⟩]

set_option maxRecDepth 100000 in
/-- A document notes the alias of a file with the type that has its color as a key and with the
value that is its color, although it stands in neither text; and so the file is imported, and
nothing of the output mentions it. -/
theorem qualifiers_left_out : ∃ s,
    ((Run.new { language := .openApi }).serveAll [.build Sample.palette]).library.scope?
      "palette.thrift" = some s ∧
    (∃ st ∈ s.structures.all, ∃ f ∈ st.allFields, ∃ a ∈ f.plainType.qualifiers,
      ¬ Occurs a f.plainType.text) ∧
    (∃ st ∈ s.structures.all, ∃ f ∈ st.allFields, ∃ a ∈ f.value.qualifiers,
      ¬ Occurs a f.value.text ∧ ¬ Occurs a f.plainType.text) ∧
    ∃ i ∈ s.linkage.imports.imports, i.used = true ∧ ¬ s.Shows i.name := by
  have hfound : (((Run.new { language := .openApi }).serveAll
      [.build Sample.palette]).library.scope? "palette.thrift").any (fun s =>
        (s.structures.all.any fun st => st.allFields.any fun f =>
          f.plainType.qualifiers.any fun a => !decide (Occurs a f.plainType.text)) &&
        (s.structures.all.any fun st => st.allFields.any fun f =>
          f.value.qualifiers.any fun a =>
            !decide (Occurs a f.value.text) && !decide (Occurs a f.plainType.text)) &&
        (s.linkage.imports.imports.any fun i => i.used &&
          s.structures.all.all fun st => st.flattenedFields.all fun f =>
            !decide (Occurs i.name f.type.text) && !decide (Occurs i.name f.plainType.text) &&
              !decide (Occurs i.name f.value.text)) &&
        (s.typedefs.isEmpty && s.constants.isEmpty && s.services.isEmpty)) = true := by
    decide +kernel
  obtain ⟨s, hs, hfound⟩ := (Option.any_eq_true _ _).mp hfound
  simp only [List.any_eq_true, List.all_eq_true, Bool.and_eq_true, Bool.not_eq_true',
    decide_eq_false_iff_not, List.isEmpty_iff] at hfound
  obtain ⟨⟨⟨htype, hvalue⟩, i, hi, hused, hnowhere⟩, ⟨htypedefs, hconstants⟩, hservices⟩ := hfound
  refine ⟨s, hs, htype, hvalue, i, hi, hused, ?_⟩
  rintro (⟨st, hst, f, hf, h⟩ | ⟨t, ht, -⟩ | ⟨c, hc, -⟩ | ⟨v, hv, -⟩ | ⟨v, hv, -⟩)
  · obtain ⟨⟨hftype, hfplain⟩, hfvalue⟩ := hnowhere st hst f hf
    rcases h with h | h | h
    · exact hftype h
    · exact hfplain h
    · exact hfvalue h
  · rw [htypedefs] at ht
    exact absurd ht List.not_mem_nil
  · rw [hconstants] at hc
    exact absurd hc List.not_mem_nil
  all_goals
    rw [hservices] at hv
    exact absurd hv List.not_mem_nil

end IdlScope

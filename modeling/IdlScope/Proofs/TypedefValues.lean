import IdlScope.Proofs.Identity
import IdlScope.Proofs.Typedefs

/-!
# Values of typedefs — what is written where a typedef stands for a container

A value of a container is written from the texts of its parts, and those go by the types of the
parts. A typedef tells its category, but not what its container holds: the parts of a value are
written as if the container held texts.

* **`Library.StandsFor`** — the type that a chain of typedefs ends with, as look-ups follow it.
* **`TypeExpr.ofTexts`** — the container of the same kind that holds texts.
* **`ValueExpr.AsText`** — values that are written the same where a text is expected.
* **`typedef_values_alike`** — a value of a typedef is written as one of the container of texts,
  hence as one of the container itself if its parts are written like texts. TypeScript writes a
  value of a typedef as an array, even where the container is a set.
* **`typedef_values_apart`** — numbers are not written like texts: a value of a typedef has other
  parts than that of the container.
-/

namespace IdlScope

/-! ## What a typedef stands for -/

/-- The name that a named type is asked for by: that of its reference, or its own. -/
def IdlType.askedName (t : IdlType) : String :=
  match t.reference with
  | some r => Library.referenceKey r t.bareName
  | none => t.bareName

namespace Library

/-- The typedef of the name stands for the type, as another file mentions it: its target is the
type, or is declared as a typedef that stands for the type. -/
inductive StandsFor (l : Library) : Place → String → Mention → Prop
  | target {p : Place} {name : String} {t : TypedefDecl}
    (ht : p.directory.typedef? name = some t) : StandsFor l p name ⟨p, t.target⟩
  | further {p q : Place} {name entry : String} {t : TypedefDecl} {b : Mention}
    (ht : p.directory.typedef? name = some t) (hnamed : t.target.IsNamed)
    (hq : l.declarationOf? ⟨p, t.target⟩ = some (q, ⟨entry, .typedef⟩))
    (h : StandsFor l q t.target.bareName b) : StandsFor l p name b

variable {l : Library} {p q : Place} {name : String} {b : Mention} {n : Nat} {c : Category}

/-- The category behind a typedef is that of the container which it stands for. -/
theorem StandsFor.behindTypedef (h : l.StandsFor p name b) (hb : ¬ b.type.IsNamed)
    (hc : l.behindTypedef n p name = some c) : c = b.type.category := by
  induction h generalizing n with
  | target ht =>
      cases n with
      | zero => cases hc
      | succ n =>
          rw [behindTypedef_succ ht, if_pos (IdlType.not_isNamed.mp hb)] at hc
          exact (Option.some.inj hc).symm
  | further ht hnamed hq _ ih =>
      cases n with
      | zero => cases hc
      | succ n =>
          rw [behindTypedef_succ ht, if_neg (mt IdlType.not_isNamed.mpr (not_not.mpr hnamed)),
            hq] at hc
          exact ih hb hc

end Library

/-! ## Containers of texts -/

namespace TypeExpr

/-- A list, a set or a map, no name of one. -/
def IsContainer : TypeExpr → Prop
  | .list _ | .set _ | .map _ _ => True
  | _ => False

/-- The container of the same kind with texts for its parts; any other type is left alone. -/
def ofTexts : TypeExpr → TypeExpr
  | .list _ => .list (.base .string)
  | .set _ => .set (.base .string)
  | .map _ _ => .map (.base .string) (.base .string)
  | t => t

variable {t : TypeExpr}

theorem underlying_ofTexts (t : TypeExpr) : t.ofTexts.underlying = t.underlying := by
  cases t <;> rfl

theorem item_ofTexts (h : t.IsContainer) : t.ofTexts.item = .base .string := by
  cases t with
  | base | declared => exact h.elim
  | list | set | map => rfl

theorem keyAndValue_ofTexts (h : t.IsContainer) :
    t.ofTexts.keyAndValue = (.base .string, .base .string) := by
  cases t with
  | base | declared => exact h.elim
  | list | set | map => rfl

/-- Texts are called the same in every language. -/
theorem spell_string (g : Language) (q : Home → Option String) :
    (base .string).spell g q = "string" := by
  cases g <;> rfl

/-- In TypeScript the text of a container begins like that of a set if it is one. -/
theorem startsWith_set_spell (q : Home → Option String) (h : t.IsContainer) :
    Text.startsWith "Set<" (t.spell .typescript q) = decide (t.underlying = .set) := by
  cases t with
  | base | declared => exact h.elim
  | list | set | map =>
      rw [Text.startsWith, spell]
      simp only [Language.listType, Language.setType, Language.mapType, String.toList_append]
      rfl

end TypeExpr

/-- Types with the same category and the same parts have the same texts for their values. -/
theorem RenderEnv.valueText_congr (e : RenderEnv) {t t' : TypeExpr}
    (hunderlying : t.underlying = t'.underlying) (hitem : t.item = t'.item)
    (hparts : t.keyAndValue = t'.keyAndValue) (text : String) (v : ValueExpr) :
    e.valueText t text v = e.valueText t' text v := by
  cases v with
  | int n => rw [valueText, valueText, hunderlying]
  | list items => rw [valueText, valueText, hitem]
  | map entries => rw [valueText, valueText, hparts]
  | _ => rw [valueText, valueText]

/-! ## Parts that are written like texts -/

namespace Language

variable {g : Language} (hg : g ≠ .go)
include hg

theorem intLiteral_text (value : Int) (type type' : String) :
    g.intLiteral value type = g.intLiteral value type' := by
  cases g with
  | go => exact absurd rfl hg
  | typescript | openApi => rfl

theorem mapLiteral_text (type type' : String) (entries : List (String × String)) :
    g.mapLiteral type entries = g.mapLiteral type' entries := by
  cases g with
  | go => exact absurd rfl hg
  | typescript | openApi => rfl

theorem listLiteral_text {type type' : String}
    (hset : g = .typescript → Text.startsWith "Set<" type = Text.startsWith "Set<" type')
    (items : List String) : g.listLiteral type items = g.listLiteral type' items := by
  cases g with
  | go => exact absurd rfl hg
  | typescript => rw [Language.listLiteral, Language.listLiteral, hset rfl]
  | openApi => rfl

end Language

namespace ValueExpr

/-- The value is written as one of the type as it is where a text is expected. Only numbers and
containers go by a type: Go names the type in front of both, and in other languages a number may
become a truth value or a double, and an array a set. -/
inductive AsText (g : Language) (q : Home → Option String) : TypeExpr → ValueExpr → Prop
  | text (v : ValueExpr) : AsText g q (.base .string) v
  | double (t : TypeExpr) (value : Float) : AsText g q t (.double value)
  | literal (t : TypeExpr) (s : String) : AsText g q t (.literal s)
  | bool (t : TypeExpr) (b : Bool) : AsText g q t (.bool b)
  | enumValue (t : TypeExpr) (home : Home) (enumName valueName : String) :
    AsText g q t (.enumValue home enumName valueName)
  | constant (t : TypeExpr) (home : Home) (name : String) : AsText g q t (.constant home name)
  | int {t : TypeExpr} (value : Int) (hg : g ≠ .go) (hbool : t.underlying ≠ .bool)
    (hdouble : t.underlying ≠ .double) : AsText g q t (.int value)
  | list {t : TypeExpr} {items : List ValueExpr} (hg : g ≠ .go)
    (hset : g = .typescript → Text.startsWith "Set<" (t.spell g q) = false)
    (h : ∀ v ∈ items, AsText g q t.item v) : AsText g q t (.list items)
  | map {t : TypeExpr} {entries : List (ValueExpr × ValueExpr)} (hg : g ≠ .go)
    (hkeys : ∀ e ∈ entries, AsText g q t.keyAndValue.1 e.1)
    (hvalues : ∀ e ∈ entries, AsText g q t.keyAndValue.2 e.2) : AsText g q t (.map entries)

variable {g : Language} {q : Home → Option String} {t : TypeExpr} {text text' : String}

theorem spellItems_congr {u : TypeExpr} {items : List ValueExpr}
    (h : ∀ v ∈ items, v.spell g q t text = v.spell g q u text') :
    spellItems g q t text items = spellItems g q u text' items := by
  induction items with
  | nil => rfl
  | cons v vs ih =>
      rw [spellItems, spellItems, h v List.mem_cons_self,
        ih fun w hw => h w (List.mem_cons_of_mem _ hw)]

theorem spellEntries_congr {t u : TypeExpr × TypeExpr} {key value key' value' : String}
    {entries : List (ValueExpr × ValueExpr)}
    (h : ∀ e ∈ entries, e.1.spell g q t.1 key = e.1.spell g q u.1 key' ∧
      e.2.spell g q t.2 value = e.2.spell g q u.2 value') :
    spellEntries g q t key value entries = spellEntries g q u key' value' entries := by
  induction entries with
  | nil => rfl
  | cons e es ih =>
      obtain ⟨hkey, hvalue⟩ := h e List.mem_cons_self
      rw [spellEntries, spellEntries, spellPair, spellPair, hkey, hvalue,
        ih fun e' he' => h e' (List.mem_cons_of_mem _ he')]

/-- Entries whose keys and values are written as texts. -/
theorem spellEntries_text {t : TypeExpr × TypeExpr} {entries : List (ValueExpr × ValueExpr)}
    (hkeys : ∀ e ∈ entries, e.1.spell g q t.1 (t.1.spell g q) =
      e.1.spell g q (.base .string) "string")
    (hvalues : ∀ e ∈ entries, e.2.spell g q t.2 (t.2.spell g q) =
      e.2.spell g q (.base .string) "string") :
    spellEntries g q t (t.1.spell g q) (t.2.spell g q) entries =
      spellEntries g q (.base .string, .base .string) "string" "string" entries :=
  spellEntries_congr fun e he => ⟨hkeys e he, hvalues e he⟩

/-- What is written as a text is written as a value of the type of texts. -/
theorem AsText.spell_eq {v : ValueExpr} (h : v.AsText g q t) :
    v.spell g q t (t.spell g q) = v.spell g q (.base .string) "string" := by
  induction h with
  | text v => rw [TypeExpr.spell_string]
  | double | literal | bool | enumValue | constant => simp only [spell]
  | @int t value hg hbool hdouble =>
      rw [spell, spell]
      split
      · next heq => exact absurd heq hbool
      · next heq => exact absurd heq hdouble
      · exact Language.intLiteral_text hg value (t.spell g q) "string"
  | @list t items hg hset _ ih =>
      rw [spell, spell, spellItems_congr ih,
        show (TypeExpr.base .string).item = .base .string from rfl, TypeExpr.spell_string]
      exact Language.listLiteral_text hg hset _
  | @map t entries hg _ _ ihkeys ihvalues =>
      rw [spell, spell, spellEntries_text ihkeys ihvalues,
        show (TypeExpr.base .string).keyAndValue = (.base .string, .base .string) from rfl,
        TypeExpr.spell_string]
      exact Language.mapLiteral_text hg _ _ _

/-- The parts of the value are written as texts, if it is a container. -/
def PartsAsText (g : Language) (q : Home → Option String) (t : TypeExpr) : ValueExpr → Prop
  | .list items => ∀ v ∈ items, v.AsText g q t.item
  | .map entries => ∀ e ∈ entries, e.1.AsText g q t.keyAndValue.1 ∧ e.2.AsText g q t.keyAndValue.2
  | _ => True

/-- A value whose parts are written like texts is written as that of a container of texts. -/
theorem PartsAsText.spell_eq {u : TypeExpr} {v : ValueExpr} (h : v.PartsAsText g q t)
    (hunderlying : u.underlying = t.underlying) (hitem : u.item = .base .string)
    (hparts : u.keyAndValue = (.base .string, .base .string)) (text : String) :
    v.spell g q u text = v.spell g q t text := by
  cases v with
  | int value => rw [spell, spell, hunderlying]
  | list items =>
      rw [spell, spell, spellItems_congr fun v hv => (h v hv).spell_eq, hitem,
        TypeExpr.spell_string]
  | map entries =>
      have hkeys : ∀ e ∈ entries, _ := fun e he => (h e he).1.spell_eq
      have hvalues : ∀ e ∈ entries, _ := fun e he => (h e he).2.spell_eq
      rw [spell, spell, spellEntries_text hkeys hvalues, hparts, TypeExpr.spell_string]
  | _ => rw [spell, spell]

end ValueExpr

/-! ## Resolved typedefs and containers -/

section Resolved

variable {l : Library} {p : Place} {owner : String}

/-- A container is resolved as a container of its kind. -/
theorem isContainer_of_resolveType {t : IdlType} {T : TypeExpr}
    (ht : t.category.isContainer = true) (h : l.resolveType p t owner = .ok T) :
    T.IsContainer ∧ T.underlying = t.category := by
  obtain ⟨name, category, key, value, reference, annotations⟩ := t
  cases category with
  | list | set =>
      obtain ⟨item, -, h⟩ := bind_eq_ok.mp h
      cases h
      exact ⟨trivial, rfl⟩
  | map =>
      obtain ⟨k, -, h⟩ := bind_eq_ok.mp h
      obtain ⟨v, -, h⟩ := bind_eq_ok.mp h
      cases h
      exact ⟨trivial, rfl⟩
  | _ => cases ht

/-- A named type is resolved as what its name is located as. -/
theorem exists_of_resolveType_named {t : IdlType} {T : TypeExpr} (ht : t.IsNamed)
    (h : l.resolveType p t owner = .ok T) : ∃ d, l.locate p t owner = .ok d ∧ T = d.toType := by
  obtain ⟨name, category, key, value, reference, annotations⟩ := t
  cases category with
  | list | set | map => cases ht.2
  | enum | struct | union | exception | typedef | service =>
      obtain ⟨d, hd, rfl⟩ := map_eq_ok.mp h
      exact ⟨d, hd, rfl⟩
  | _ => cases ht.1

/-- A typedef of a container is resolved as its name with the category of the container. -/
theorem resolveType_typedef {a : IdlType} (ha : a.IsNamed) {A : TypeExpr}
    (hA : l.resolveType p a owner = .ok A) {q : Place} {name : String}
    (hq : l.declarationOf? ⟨p, a⟩ = some (q, ⟨name, .typedef⟩)) {b : Mention}
    (hstands : l.StandsFor q a.askedName b) (hb : b.type.category.isContainer = true) :
    A = .declared q.home name b.type.category := by
  obtain ⟨d, hd, rfl⟩ := exists_of_resolveType_named ha hA
  have hnamed : ¬ b.type.IsNamed := by
    rintro ⟨-, hcontainer⟩
    rw [hb] at hcontainer
    cases hcontainer
  rw [Library.locate_of_declarationOf? hq owner] at hd
  cases hcategory : l.underlying? q a ⟨name, .typedef⟩ with
  | none =>
      rw [hcategory] at hd
      cases hd
  | some category =>
      rw [hcategory] at hd
      obtain rfl := Except.ok.inj hd
      have hbehind : category = b.type.category := hstands.behindTypedef hnamed hcategory
      rw [Located.toType, hbehind]

end Resolved

/-! ## Sets in TypeScript -/

theorem Text.startsWith_of_not_mem {head s : String} {c : Char} (hc : c ∈ head.toList)
    (h : c ∉ s.toList) : startsWith head s = false := by
  rw [startsWith, Bool.eq_false_iff]
  intro hprefix
  exact h ((List.isPrefixOf_iff_prefix.mp hprefix).subset hc)

/-- No alias of a finished file has the bracket that the type of a set has. -/
theorem Scope.Built.bracket_not_mem {s : Scope} {o : Options} {t : Tree} {l : Library}
    {k : Linkage} (h : s.Built o t l k) (ho : o.language ≠ .openApi) (hl : l.Packaged o) :
    ∀ i ∈ s.linkage.imports.imports, '<' ∉ i.name.toList := by
  refine h.aliases_of ho hl (Q := fun name => '<' ∉ name.toList) ?_ ?_
  · intro name hname
    rw [String.toList_push, List.mem_append, List.mem_singleton]
    rintro (hmem | hmem)
    · exact hname hmem
    · exact absurd hmem (by decide)
  · exact not_mem_aliasOf (by decide) (by decide) (by decide)

/-- In TypeScript a list of items is an array, or a set behind the text of one. -/
theorem Language.listLiteral_typescript (type : String) (items : List String) :
    Language.typescript.listLiteral type items =
      if Text.startsWith "Set<" type then "new Set([" ++ ", ".intercalate items ++ "])"
      else "[" ++ ", ".intercalate items ++ "]" :=
  rfl

section Sets

variable {o : Options} {P : Tree → Prop} {l : Library} (hl : l.Sound o P)
include hl

/-- What a place that shows names has entered is called by an identifier. -/
theorem Place.Shows.isIdentifier {own : List (Structure NamedField)} {q : Place}
    (hq : q.Shows l own) {key : String} {d : Declared}
    (h : q.directory.declared? DeclKind.isType key = some d) :
    Naming.isIdentifier d.name = true := by
  obtain ⟨w, r, hr, -, hdeclared, -⟩ := hq.exists_roster hl
  rw [Directory.declared?, hdeclared] at h
  exact Site.isIdentifier_declared hr (Option.filter_eq_some_iff.mp h).1

/-- In TypeScript the text of a declared type does not begin like that of a set. -/
theorem startsWith_set_declared (ho : o.language = .typescript) {file : String} {s : Scope}
    (hs : l.scope? file = some s) {home : Home} {q : Option String}
    (hq : s.linkage.Qualifies o.language l home q) {name : String}
    (hname : Naming.isIdentifier name = true) :
    Text.startsWith "Set<" (qualify q name) = false := by
  obtain ⟨t, m, k, -, hle, hbuilt⟩ := hl.built file s hs
  have htidy := hbuilt.tidy_linkage
  have hpackaged : m.Packaged o := fun file u hu => hl.packaged file u (hle file u hu)
  have haliases := hbuilt.bracket_not_mem (by rw [ho]; decide) hpackaged
  have hqualifier := hq.of_aliases htidy (Q := fun name => '<' ∉ name.toList) haliases
  have hbracket : '<' ∉ name.toList := Naming.not_mem_of_isIdentifier hname (by decide)
  refine Text.startsWith_of_not_mem (c := '<') (by decide) ?_
  cases q with
  | none => exact hbracket
  | some a =>
      rw [qualify, String.toList_append, String.toList_append]
      intro hmem
      rcases List.mem_append.mp hmem with hmem | hmem
      · rcases List.mem_append.mp hmem with hmem | hmem
        · exact hqualifier a rfl hmem
        · exact absurd hmem (by decide)
      · exact hbracket hmem

/-- Behind the name of a typedef TypeScript writes an array. -/
theorem listLiteral_declared (ho : o.language = .typescript) {file : String} {s : Scope}
    (hs : l.scope? file = some s) {home : Home} {q : Home → Option String}
    (hq : s.linkage.Qualifies o.language l home (q home)) {name : String}
    (hname : Naming.isIdentifier name = true) (c : Category) (items : List String) :
    o.language.listLiteral ((TypeExpr.declared home name c).spell o.language q) items =
      "[" ++ ", ".intercalate items ++ "]" := by
  have hspell : (TypeExpr.declared home name c).spell o.language q = qualify (q home) name := by
    rw [ho]
    rfl
  rw [hspell, ho, Language.listLiteral_typescript, startsWith_set_declared hl ho hs hq hname,
    if_neg Bool.false_ne_true]

end Sets

/-- Behind the text of a container TypeScript writes a set if it is one. -/
theorem TypeExpr.listLiteral_spell {T : TypeExpr} (h : T.IsContainer)
    (q : Home → Option String) (items : List String) :
    Language.typescript.listLiteral (T.spell .typescript q) items =
      if T.underlying = .set then "new Set([" ++ ", ".intercalate items ++ "])"
      else "[" ++ ", ".intercalate items ++ "]" := by
  rw [Language.listLiteral_typescript, startsWith_set_spell q h]
  simp only [decide_eq_true_eq]

/-! ## Values of typedefs -/

section Written

variable {g : Language} {l : Library} {k : Linkage} {q : Home → Option String} {t : TypeExpr}

/-- What is written for a type whose homes have their qualifiers. -/
theorem RenderEnv.text_type (h : ∀ home ∈ t.homes, k.Qualifies g l home (q home)) :
    (RenderEnv.type ⟨g, l⟩ t k).1.text = t.spell g q :=
  congrArg Rendered.text ((RenderEnv.writes_type ⟨g, l⟩ t).again h)

/-- What is written for a value whose homes have their qualifiers. -/
theorem RenderEnv.text_value {v : ValueExpr}
    (h : ∀ home ∈ v.homes t, k.Qualifies g l home (q home)) (text : String) :
    (RenderEnv.value ⟨g, l⟩ t text v k).1.text = v.spell g q t text :=
  congrArg Rendered.text ((RenderEnv.writes_value ⟨g, l⟩ t text v).again h)

end Written

/-- **A value of a typedef is written as one of the container of texts.** On a library that a
build has come to, a finished file mentions a typedef that stands, perhaps through others, for a
container. Whatever text stands for the type, a value is written as that of the container of the
same kind with texts for its parts. So it is written as that of the container itself, with the
same text for the type, if its parts are written like texts. In TypeScript the parts stand in an
array behind the text of the typedef, and in a set behind that of the container if this is one. -/
theorem typedef_values_alike {o : Options} {P : Tree → Prop} {l : Library} (hl : l.Sound o P)
    {file : String} {s : Scope} (hs : l.scope? file = some s) (is : List (Option Include))
    {a : IdlType} (ha : a.IsNamed) {q : Place} {name : String}
    (hq : l.declarationOf? ⟨s.within is, a⟩ = some (q, ⟨name, .typedef⟩)) {b : Mention}
    (hstands : l.StandsFor q a.askedName b) (hb : b.type.category.isContainer = true)
    {owner owner' : String} {A T : TypeExpr} (hA : l.resolveType (s.within is) a owner = .ok A)
    (hT : l.resolveType b.place b.type owner' = .ok T) :
    A = .declared q.home name T.underlying ∧
    (∀ text v k, RenderEnv.value ⟨o.language, l⟩ A text v k =
      RenderEnv.value ⟨o.language, l⟩ T.ofTexts text v k) ∧
    (∀ (qualifier : Home → Option String) v, v.PartsAsText o.language qualifier T →
      (∀ home ∈ v.homes A ++ v.homes T,
        s.linkage.Qualifies o.language l home (qualifier home)) →
      ∀ text, (RenderEnv.value ⟨o.language, l⟩ A text v s.linkage).1.text =
        (RenderEnv.value ⟨o.language, l⟩ T text v s.linkage).1.text) ∧
    (o.language = .typescript → ∀ qualifier : Home → Option String,
      (∀ home ∈ A.homes ++ T.homes,
        s.linkage.Qualifies o.language l home (qualifier home)) → ∀ items,
      o.language.listLiteral (RenderEnv.type ⟨o.language, l⟩ A s.linkage).1.text items =
        "[" ++ ", ".intercalate items ++ "]" ∧
      o.language.listLiteral (RenderEnv.type ⟨o.language, l⟩ T s.linkage).1.text items =
        if T.underlying = .set then "new Set([" ++ ", ".intercalate items ++ "])"
        else "[" ++ ", ".intercalate items ++ "]") := by
  obtain ⟨hcontainer, hunderlying⟩ := isContainer_of_resolveType hb hT
  have hdeclared := resolveType_typedef ha hA hq hstands hb
  rw [← hunderlying] at hdeclared
  subst hdeclared
  let named : TypeExpr := .declared q.home name T.underlying
  have hkind : named.underlying = T.ofTexts.underlying := T.underlying_ofTexts.symm
  have hitem : named.item = T.ofTexts.item := (TypeExpr.item_ofTexts hcontainer).symm
  have hparts : named.keyAndValue = T.ofTexts.keyAndValue :=
    (TypeExpr.keyAndValue_ofTexts hcontainer).symm
  refine ⟨rfl, ?_, ?_, ?_⟩
  · intro text v k
    rw [RenderEnv.value, RenderEnv.value, RenderEnv.valueText_congr _ hkind hitem hparts]
  · intro qualifier v htexts hhomes text
    have hnamed : (RenderEnv.value ⟨o.language, l⟩ named text v s.linkage).1.text = _ :=
      RenderEnv.text_value (fun home hhome => hhomes home (List.mem_append_left _ hhome)) text
    have htarget : (RenderEnv.value ⟨o.language, l⟩ T text v s.linkage).1.text = _ :=
      RenderEnv.text_value (fun home hhome => hhomes home (List.mem_append_right _ hhome)) text
    exact hnamed.trans ((htexts.spell_eq (u := named) rfl rfl rfl text).trans htarget.symm)
  · intro ho qualifier hhomes items
    have hnamed : (RenderEnv.type ⟨o.language, l⟩ named s.linkage).1.text = _ :=
      RenderEnv.text_type fun home hhome => hhomes home (List.mem_append_left _ hhome)
    have htarget : (RenderEnv.type ⟨o.language, l⟩ T s.linkage).1.text = _ :=
      RenderEnv.text_type fun home hhome => hhomes home (List.mem_append_right _ hhome)
    have hhome := hhomes q.home (List.mem_append_left _ (List.mem_singleton_self _))
    have hname : Naming.isIdentifier name = true := by
      obtain ⟨probe, -, rfl, hentry⟩ := Library.mem_of_first? hq
      have hshows := (hl.shows_within hs is).reaches (Library.reaches_of_declaration? hq).1
      exact hshows.isIdentifier hl hentry
    rw [hnamed, htarget]
    refine ⟨listLiteral_declared hl ho hs hhome hname T.underlying items, ?_⟩
    rw [ho]
    exact TypeExpr.listLiteral_spell hcontainer qualifier items

namespace Sample

/-- A load with its weights, which are a list of numbers, and its labels, which are a set of texts
by their second name. -/
def load : Tree where
  document := { Document.empty "user.thrift" with
    typedefs := [
      ⟨"Weights", { IdlType.named "list" .list with value := some (.named "i32" .i32) }, []⟩,
      ⟨"Names", { IdlType.named "set" .set with value := some (.named "string" .string) }, []⟩,
      ⟨"Labels", .named "Names" .typedef, []⟩]
    structs := [⟨"struct", "Load", [
      ⟨1, "weights", .default, .named "Weights" .typedef, some (.list [.int 1, .int 2]), []⟩,
      ⟨2, "labels", .default, .named "Labels" .typedef, some (.list [.literal "a"]), []⟩],
      [], none⟩] }
  includes := []

end Sample

set_option maxRecDepth 100000 in
/-- Labels are written like the texts of the set, but in an array. -/
theorem typedef_values_alike_labels :
    ∃ l s A T, l = ((Run.new { language := .typescript }).serveAll [.build Sample.load]).library ∧
      l.scope? "user.thrift" = some s ∧
      l.resolveType (s.within s.linkage.includes) (.named "Labels" .typedef) "" = .ok A ∧
      T = .set (.base .string) ∧
      (RenderEnv.value ⟨.typescript, l⟩ A "Labels" (.list [.literal "a"]) s.linkage).1.text =
        (RenderEnv.value ⟨.typescript, l⟩ T "Labels" (.list [.literal "a"]) s.linkage).1.text ∧
      Language.typescript.listLiteral (RenderEnv.type ⟨.typescript, l⟩ A s.linkage).1.text ["a"] =
        "[a]" ∧
      Language.typescript.listLiteral (RenderEnv.type ⟨.typescript, l⟩ T s.linkage).1.text ["a"] =
        "new Set([a])" := by
  have hfound : ∃ l,
      l = ((Run.new { language := .typescript }).serveAll [.build Sample.load]).library ∧
      (l.scope? "user.thrift").any (fun s =>
        (l.resolveType (s.within s.linkage.includes) (.named "Labels" .typedef)
          "").toOption.isSome &&
        (l.declarationOf? ⟨s.within s.linkage.includes, .named "Labels" .typedef⟩).any fun found =>
          decide (found.1.home = .here) && decide (found.2 = ⟨"Labels", .typedef⟩) &&
          (found.1.directory.typedef? "Labels").any fun first => decide first.target.IsNamed &&
            (l.declarationOf? ⟨found.1, first.target⟩).any fun next =>
              decide (next.2.kind = .typedef) &&
              (next.1.directory.typedef? first.target.bareName).any fun last =>
                last.target.category.isContainer &&
                decide ((l.resolveType next.1 last.target "").toOption =
                  some (.set (.base .string)))) = true :=
    ⟨_, rfl, by decide +kernel⟩
  obtain ⟨l, hl, hfound⟩ := hfound
  obtain ⟨s, hs, hfound⟩ := (Option.any_eq_true _ _).mp hfound
  simp only [Bool.and_eq_true, Option.any_eq_true, Option.isSome_iff_exists, decide_eq_true_eq,
    toOption_eq_some] at hfound
  obtain ⟨⟨A, hA⟩, ⟨q, e⟩, hq, ⟨hhome, rfl⟩, first, hfirst, hnamed, ⟨r, e, kind⟩, hr, rfl, last,
    hlast, hcontainer, hT⟩ := hfound
  have hstands : l.StandsFor q "Labels" ⟨r, last.target⟩ :=
    .further hfirst hnamed hr (.target hlast)
  have hlibrary := hl ▸ Run.sound_serveAll { language := .typescript } [.build Sample.load]
  obtain ⟨hdeclared, -, hvalues, hforms⟩ := typedef_values_alike hlibrary hs s.linkage.includes
    (by decide) hq hstands hcontainer hA hT
  refine ⟨l, s, A, .set (.base .string), hl, hs, hA, rfl, ?_, ?_⟩
  · refine hvalues (fun _ => none) _ ?_ ?_ "Labels"
    · intro v hv
      rw [List.mem_singleton.mp hv]
      exact .literal _ _
    · rw [hdeclared]
      exact fun home hhome => absurd hhome List.not_mem_nil
  · refine hforms rfl (fun _ => none) ?_ ["a"]
    rw [hdeclared]
    intro home hmem
    obtain rfl : home = q.home := List.mem_singleton.mp hmem
    rw [hhome]
    exact .here

set_option maxRecDepth 100000 in
/-- The weights of a load are numbers. Its field is written as if they were texts, and so are the
parts of the value wherever the typedef stands; as a list of numbers it would have numbers. -/
theorem typedef_values_apart :
    ∃ l s, l = ((Run.new {}).serveAll [.build Sample.load]).library ∧
      l.scope? "user.thrift" = some s ∧
      (∃ st ∈ s.structures.all, ∃ f ∈ st.allFields, f.decl.name = "weights" ∧
        f.value.text = "Weights\x7bstring(1), string(2)\x7d") ∧
      ∃ q b A T,
        l.declarationOf? ⟨s.within s.linkage.includes, .named "Weights" .typedef⟩ =
          some (q, ⟨"Weights", .typedef⟩) ∧
        l.StandsFor q "Weights" b ∧
        l.resolveType (s.within s.linkage.includes) (.named "Weights" .typedef) "" = .ok A ∧
        l.resolveType b.place b.type "" = .ok T ∧ T = .list (.base .i32) ∧
        (RenderEnv.value ⟨.go, l⟩ A "Weights" (.list [.int 1, .int 2]) s.linkage).1.text =
          "Weights\x7bstring(1), string(2)\x7d" ∧
        (RenderEnv.value ⟨.go, l⟩ T "Weights" (.list [.int 1, .int 2]) s.linkage).1.text =
          "Weights\x7b1, 2\x7d" := by
  have hfound : ∃ l, l = ((Run.new {}).serveAll [.build Sample.load]).library ∧
      (l.scope? "user.thrift").any (fun s =>
        (s.structures.all.any fun st => st.allFields.any fun f => f.decl.name == "weights" &&
          f.value.text == "Weights\x7bstring(1), string(2)\x7d") &&
        (l.declarationOf? ⟨s.within s.linkage.includes, .named "Weights" .typedef⟩).any fun found =>
          decide (found.2 = ⟨"Weights", .typedef⟩) &&
          (found.1.directory.typedef? "Weights").any fun t =>
            decide ((l.resolveType found.1 t.target "").toOption = some (.list (.base .i32))) &&
            (l.resolveType (s.within s.linkage.includes) (.named "Weights" .typedef)
              "").toOption.any fun A =>
              (RenderEnv.value ⟨.go, l⟩ A "Weights" (.list [.int 1, .int 2]) s.linkage).1.text ==
                "Weights\x7bstring(1), string(2)\x7d" &&
              (RenderEnv.value ⟨.go, l⟩ (.list (.base .i32)) "Weights" (.list [.int 1, .int 2])
                s.linkage).1.text == "Weights\x7b1, 2\x7d") = true :=
    ⟨_, rfl, by decide +kernel⟩
  obtain ⟨l, hl, hfound⟩ := hfound
  obtain ⟨s, hs, hfound⟩ := (Option.any_eq_true _ _).mp hfound
  simp only [Bool.and_eq_true, Option.any_eq_true, List.any_eq_true, decide_eq_true_eq, beq_iff_eq,
    toOption_eq_some] at hfound
  obtain ⟨⟨st, hst, f, hf, hname, htext⟩, ⟨q, e⟩, hq, rfl, t, ht, hT, A, hA, hvalue, hvalue'⟩ :=
    hfound
  exact ⟨l, s, hl, hs, ⟨st, hst, f, hf, hname, htext⟩, q, ⟨q, t.target⟩, A, _, hq, .target ht, hA,
    hT, rfl, hvalue, hvalue'⟩

end IdlScope

import IdlScope.Proofs.Agreement
import IdlScope.Proofs.Relocation
import Mathlib.Data.List.TakeWhile

/-!
# Signatures — the types of a function and those of the structure of its arguments

The arguments of a function are the fields of a structure that is made up for it. A field finds
its type as it is written, before anything of the file is written. The signature finds its types
later and in another way: a qualified name is looked for by its bare name first, in the files
that are included directly. Both have one shape, but a name in it may mean two declarations:

* **`Library.Requalifies`** — the declaration that a qualified name has in the first direct
  include that offers its bare name; `unqualified?_eq_some_iff` says that signatures take it.
* **`TypeExpr.Pairs`** — two types of one shape, with a relation between their names.
* **`Library.Signs`** — what a signature and a field make of one name.
* **`signature_alike`** — a signature has the arguments and the shape of the fields, and means
  the same declarations wherever a single file declares the name, and wherever the name is not
  taken from an include and the includes appended in between make no difference.
* **`signature_apart`** — a name that two direct includes declare may be taken from another one
  than its qualifier says.
-/

namespace IdlScope

/-! ## Bare names -/

namespace Text

theorem splitLast_of_forall_ne {sep : Char} {s : String} (h : ∀ c ∈ s.toList, c ≠ sep) :
    splitLast sep s = (none, s) := by
  have htail : s.toList.reverse.takeWhile (· != sep) = s.toList.reverse :=
    List.takeWhile_eq_self_iff.mpr fun c hc => by simpa using h c (List.mem_reverse.mp hc)
  rw [splitLast, htail, List.drop_length]

/-- Behind the last separator there is no other one. -/
theorem splitLast_snd (sep : Char) (s : String) :
    splitLast sep (splitLast sep s).2 = (none, (splitLast sep s).2) := by
  refine splitLast_of_forall_ne ?_
  have htail : ∀ c ∈ s.toList.reverse.takeWhile (· != sep), c ≠ sep :=
    fun c hc => by simpa using List.mem_takeWhile_imp hc
  rw [splitLast]
  split
  · next hdrop =>
    -- nothing is left in front of the tail, so the tail is the whole text
    have hall := (List.takeWhile_prefix (· != sep)).eq_of_length_le (List.drop_eq_nil_iff.mp hdrop)
    rw [hall] at htail
    exact fun c hc => htail c (List.mem_reverse.mpr hc)
  · exact fun c hc => htail c (by simpa using hc)

end Text

namespace IdlType

/-- A reference of the type asks for its bare name, as the type itself does. -/
def AsksBare (t : IdlType) : Prop :=
  ∀ r ∈ t.reference, Library.referenceKey r t.bareName = t.bareName

theorem asksBare_named (name : String) (category : Category) : (named name category).AsksBare :=
  fun _ hr => absurd hr (Option.not_mem_none _)

theorem splitName_bareName (t : IdlType) (category : Category) :
    (named t.bareName category).splitName = (none, t.bareName) :=
  Text.splitLast_snd '.' t.name

end IdlType

namespace Library

variable {l : Library} {p q : Place} {t : IdlType} {d : Located} {owner : String}

theorem locate_owner (h : l.locate p t owner = .ok d) (other : String) :
    l.locate p t other = .ok d := by
  rw [locate] at h ⊢
  dsimp only at h ⊢
  split at h
  · exact h
  · cases h

theorem key_of_mem_declarationPath {probe : Probe} (hbare : t.AsksBare)
    (h : probe ∈ l.declarationPath p t.name t.reference) : probe.key = t.bareName := by
  cases hr : t.reference with
  | none =>
      rw [hr] at h
      exact key_of_mem_pathOf h
  | some r =>
      rw [hr, declarationPath_some] at h
      rcases List.mem_append.mp h with h | h
      · obtain ⟨q, -, rfl⟩ := Option.map_eq_some_iff.mp (Option.mem_toList.mp h)
        exact hbare r hr
      · exact key_of_mem_pathOf h

/-- A located type is declared at a place that is reached, by its bare name if a reference does
not ask for another one. -/
theorem reaches_of_locate (h : l.locate p t owner = .ok d) :
    ∃ q found, l.Reaches p q ∧ d.home = q.home ∧ d.name = found.name ∧
      (t.AsksBare → q.directory.declared? DeclKind.isType t.bareName = some found) := by
  obtain ⟨q, found, hfound, hhome, hname⟩ := locate_eq_ok h
  refine ⟨q, found, (reaches_of_declaration? hfound).1, hhome, hname, fun hbare => ?_⟩
  obtain ⟨probe, hprobe, rfl, hd⟩ := mem_of_first? hfound
  rwa [key_of_mem_declarationPath hbare hprobe] at hd

/-- The file itself is the only place at its home, and so is every other file. -/
theorem eq_of_home {q' : Place} (hp : p.home = .here) (hq : l.Reaches p q)
    (hq' : l.Reaches p q') (h : q.home = q'.home) : q = q' := by
  have hforeign : ∀ {file : String} {r : Place}, l.place? file = some r →
      r.home = .foreign file := by
    intro file r hr
    obtain ⟨s, -, rfl⟩ := Option.map_eq_some_iff.mp hr
    rfl
  rcases hq with rfl | ⟨file, hfile, -⟩
  · rcases hq' with rfl | ⟨file, hfile, -⟩
    · rfl
    · rw [hp, hforeign hfile] at h
      cases h
  · rcases hq' with rfl | ⟨file', hfile', -⟩
    · rw [hp, hforeign hfile] at h
      cases h
    · rw [hforeign hfile, hforeign hfile'] at h
      obtain rfl := Home.foreign.inj h
      exact Option.some.inj (hfile.symm.trans hfile')

/-- What an included file reaches is reached. -/
theorem Reaches.of_present {i : Include} {r : Place} (hi : i ∈ p.directory.present)
    (hq : l.place? i.file = some q) (h : l.Reaches q r) : l.Reaches p r := by
  rcases h with rfl | ⟨file, hr, hleads⟩
  · exact .inr ⟨i.file, hq, .direct hi⟩
  · exact .inr ⟨file, hr, .through hi hq hleads⟩

/-! ## Names taken from an include -/

/-- The include is of the file at `q`, which declares the bare name of the type and locates `d`
by it. -/
structure Offers (l : Library) (t : IdlType) (i : Include) (q : Place) (d : Located) : Prop where
  place : l.place? i.file = some q
  declares : (q.directory.declared.get? t.bareName).isSome
  locates : ∀ owner, l.locate q (.named t.bareName t.category) owner = .ok d

/-- The type is qualified, and the first direct include of `p` that offers its bare name offers
`d`. -/
def Requalifies (l : Library) (p : Place) (t : IdlType) (q : Place) (d : Located) : Prop :=
  t.splitName.1.isSome ∧ ∃ front i back, p.directory.present = front ++ i :: back ∧
    l.Offers t i q d ∧ ∀ j ∈ front, ∀ q' d', ¬ l.Offers t j q' d'

/-- What an include offers is its own declaration, if it declares the name as a type. -/
theorem Offers.of_declared? {i : Include} (h : l.Offers t i q d) {found : Declared}
    (hfound : q.directory.declared? DeclKind.isType t.bareName = some found) :
    d.home = q.home ∧ d.name = found.name := by
  obtain ⟨q', found', hlocated, hhome, hname⟩ := locate_eq_ok (h.locates "")
  have hown : l.declaration? q t.bareName none DeclKind.isType = some (q, found) := by
    rw [declaration?, declarationPath,
      show splitQualified t.bareName = (none, t.bareName) from t.splitName_bareName t.category]
    change Probe.first? _ (⟨q, t.bareName⟩ :: _) = _
    rw [Probe.first?]
    dsimp only
    rw [hfound]
  obtain ⟨rfl, rfl⟩ := Prod.mk.inj (Option.some.inj (hlocated.symm.trans hown))
  exact ⟨hhome, hname⟩

/-- A signature takes a qualified name from the first direct include that offers it. -/
theorem unqualified?_eq_some_iff {e : TypeExpr} :
    l.unqualified? p t owner = some e ↔ ∃ q d, l.Requalifies p t q d ∧ d.toType = e := by
  have hoffer : ∀ i e, (do
      let q ← l.place? i.file
      let _ ← q.directory.declared.get? t.bareName
      (l.locate q (.named t.bareName t.category) owner).toOption.map Located.toType) = some e ↔
        ∃ q d, l.Offers t i q d ∧ d.toType = e := by
    intro i e
    constructor
    · intro h
      obtain ⟨q, hq, h⟩ := Option.bind_eq_some_iff.mp h
      obtain ⟨found, hfound, h⟩ := Option.bind_eq_some_iff.mp h
      obtain ⟨d, hd, rfl⟩ := Option.map_eq_some_iff.mp h
      exact ⟨q, d, ⟨hq, Option.isSome_of_eq_some hfound,
        locate_owner (toOption_eq_some.mp hd)⟩, rfl⟩
    · rintro ⟨q, d, h, rfl⟩
      obtain ⟨found, hfound⟩ := Option.isSome_iff_exists.mp h.declares
      refine Option.bind_eq_some_iff.mpr ⟨q, h.place, Option.bind_eq_some_iff.mpr
        ⟨found, hfound, Option.map_eq_some_iff.mpr ⟨d, ?_, rfl⟩⟩⟩
      exact toOption_eq_some.mpr (h.locates owner)
  rw [unqualified?]
  rcases hsplit : t.splitName with ⟨_ | qualifier, bare⟩
  · simp [Requalifies, hsplit]
  · obtain rfl : t.bareName = bare := congrArg Prod.snd hsplit
    rw [List.findSome?_eq_some_iff]
    constructor
    · rintro ⟨front, i, back, hpresent, hi, hfront⟩
      obtain ⟨q, d, hd, rfl⟩ := (hoffer i e).mp hi
      refine ⟨q, d, ⟨by rw [hsplit]; rfl, front, i, back, hpresent, hd, ?_⟩, rfl⟩
      intro j hj q' d' hd'
      cases (hfront j hj).symm.trans ((hoffer j _).mpr ⟨q', d', hd', rfl⟩)
    · rintro ⟨q, d, ⟨-, front, i, back, hpresent, hd, hfront⟩, rfl⟩
      refine ⟨front, i, back, hpresent, (hoffer i _).mpr ⟨q, d, hd, rfl⟩, fun j hj => ?_⟩
      refine Option.eq_none_iff_forall_ne_some.mpr fun e he => ?_
      obtain ⟨q', d', hd', -⟩ := (hoffer j e).mp he
      exact hfront j hj q' d' hd'

/-- What a signature makes of a name: it takes it from an include, or locates it as written. -/
def Signed (l : Library) (p : Place) (t : IdlType) (d : Located) : Prop :=
  (∃ q, l.Requalifies p t q d) ∨
    (∀ q d', ¬ l.Requalifies p t q d') ∧ ∀ owner, l.locate p t owner = .ok d

theorem signed_of_resolved {e : TypeExpr}
    (h : (match l.unqualified? p t owner with
      | some found => Except.ok found
      | none => (l.locate p t owner).map Located.toType) = .ok e) :
    ∃ d, e = d.toType ∧ l.Signed p t d := by
  split at h
  · next found hfound =>
    cases h
    obtain ⟨q, d, hd, rfl⟩ := unqualified?_eq_some_iff.mp hfound
    exact ⟨d, rfl, .inl ⟨q, hd⟩⟩
  · next hnone =>
    obtain ⟨d, hd, rfl⟩ := map_eq_ok.mp h
    refine ⟨d, rfl, .inr ⟨fun q d' hd' => ?_, locate_owner hd⟩⟩
    cases hnone.symm.trans (unqualified?_eq_some_iff.mpr ⟨q, d', hd', rfl⟩)

/-- In either way the declaration stands at a place that is reached. -/
theorem Signed.reaches (h : l.Signed p t d) :
    ∃ q found, l.Reaches p q ∧ d.home = q.home ∧ d.name = found.name ∧
      (t.AsksBare → q.directory.declared? DeclKind.isType t.bareName = some found) := by
  rcases h with ⟨q, -, front, i, back, hpresent, hoffers, -⟩ | ⟨-, hlocated⟩
  · obtain ⟨r, found, hreaches, hhome, hname, hfound⟩ := reaches_of_locate (hoffers.locates "")
    have hi : i ∈ p.directory.present :=
      hpresent ▸ List.mem_append_right _ List.mem_cons_self
    refine ⟨r, found, hreaches.of_present hi hoffers.place, hhome, hname, fun _ => ?_⟩
    have hbare := hfound (IdlType.asksBare_named _ _)
    rwa [IdlType.bareName, show splitQualified _ = _ from t.splitName_bareName t.category] at hbare
  · exact reaches_of_locate (hlocated "")

end Library

/-! ## Types of one shape -/

/-- The expressions have the shape of the type, and what they make of each name in it is
related. -/
inductive TypeExpr.Pairs (R : IdlType → Located → Located → Prop) :
    IdlType → TypeExpr → TypeExpr → Prop
  | base {t : IdlType} (hbase : t.category.isBase = true) :
    Pairs R t (.base t.category) (.base t.category)
  | list {t item : IdlType} {a b : TypeExpr} (hlist : t.category = .list)
    (hitem : t.value = some item) (h : Pairs R item a b) : Pairs R t (.list a) (.list b)
  | set {t item : IdlType} {a b : TypeExpr} (hset : t.category = .set)
    (hitem : t.value = some item) (h : Pairs R item a b) : Pairs R t (.set a) (.set b)
  | map {t key value : IdlType} {a b c d : TypeExpr} (hmap : t.category = .map)
    (hkey : t.key = some key) (hvalue : t.value = some value) (h : Pairs R key a b)
    (h' : Pairs R value c d) : Pairs R t (.map a c) (.map b d)
  | declared {t : IdlType} {d d' : Located} (hbase : t.category.isBase = false)
    (hcontainer : t.category.isContainer = false) (h : R t d d') : Pairs R t d.toType d'.toType

namespace TypeExpr.Pairs

variable {R : IdlType → Located → Located → Prop} {t : IdlType} {e e' : TypeExpr}

/-- Pairs of a list are lists of pairs. -/
theorem items (h : Pairs R t e e') (hlist : t.category = .list) :
    ∃ item a b, t.value = some item ∧ e = .list a ∧ e' = .list b ∧ Pairs R item a b := by
  cases h with
  | list _ hitem h => exact ⟨_, _, _, hitem, rfl, rfl, h⟩
  | base hbase => simp [hlist, Category.isBase] at hbase
  | set hset => cases hlist.symm.trans hset
  | map hmap => cases hlist.symm.trans hmap
  | declared _ hcontainer => simp [hlist, Category.isContainer] at hcontainer

/-- Pairs of a name are related declarations. -/
theorem related (h : Pairs R t e e') (hbase : t.category.isBase = false)
    (hcontainer : t.category.isContainer = false) :
    ∃ d d', e = d.toType ∧ e' = d'.toType ∧ R t d d' := by
  cases h with
  | declared _ _ h => exact ⟨_, _, rfl, rfl, h⟩
  | base h => cases hbase.symm.trans h
  | list h => simp [h, Category.isContainer] at hcontainer
  | set h => simp [h, Category.isContainer] at hcontainer
  | map h => simp [h, Category.isContainer] at hcontainer

end TypeExpr.Pairs

section Pairs

variable {R : IdlType → Located → Located → Prop} {file₁ file₂ owner₁ owner₂ : String}
  {find₁ find₂ : IdlType → Except ResolveError TypeExpr}

mutual

/-- Two ways to find names that make related declarations of each name make types of one
shape. -/
theorem pairs_resolveWith (hfind : ∀ t e₁ e₂, find₁ t = .ok e₁ → find₂ t = .ok e₂ →
      ∃ d₁ d₂, e₁ = d₁.toType ∧ e₂ = d₂.toType ∧ R t d₁ d₂) :
    ∀ (t : IdlType) {e₁ e₂ : TypeExpr}, resolveWith file₁ owner₁ find₁ t = .ok e₁ →
      resolveWith file₂ owner₂ find₂ t = .ok e₂ → TypeExpr.Pairs R t e₁ e₂
  | ⟨_, category, key, value, _, _⟩, e₁, e₂, h₁, h₂ => by
    cases category with
    | list =>
        obtain ⟨a, ha, h₁⟩ := bind_eq_ok.mp h₁
        obtain ⟨b, hb, h₂⟩ := bind_eq_ok.mp h₂
        cases h₁
        cases h₂
        obtain ⟨item, hitem, hpairs⟩ := pairs_resolveElement hfind value ha hb
        exact .list rfl hitem hpairs
    | set =>
        obtain ⟨a, ha, h₁⟩ := bind_eq_ok.mp h₁
        obtain ⟨b, hb, h₂⟩ := bind_eq_ok.mp h₂
        cases h₁
        cases h₂
        obtain ⟨item, hitem, hpairs⟩ := pairs_resolveElement hfind value ha hb
        exact .set rfl hitem hpairs
    | map =>
        obtain ⟨a, ha, h₁⟩ := bind_eq_ok.mp h₁
        obtain ⟨c, hc, h₁⟩ := bind_eq_ok.mp h₁
        obtain ⟨b, hb, h₂⟩ := bind_eq_ok.mp h₂
        obtain ⟨d, hd, h₂⟩ := bind_eq_ok.mp h₂
        cases h₁
        cases h₂
        obtain ⟨_, hkey, hkeys⟩ := pairs_resolveElement hfind key ha hb
        obtain ⟨_, hvalue, hvalues⟩ := pairs_resolveElement hfind value hc hd
        exact .map rfl hkey hvalue hkeys hvalues
    | enum | struct | union | exception | typedef | service =>
        obtain ⟨d₁, d₂, rfl, rfl, h⟩ := hfind _ e₁ e₂ h₁ h₂
        exact .declared rfl rfl h
    | _ =>
        cases h₁
        cases h₂
        exact .base rfl
termination_by structural t => t

theorem pairs_resolveElement {name₁ name₂ : String}
    (hfind : ∀ t e₁ e₂, find₁ t = .ok e₁ → find₂ t = .ok e₂ →
      ∃ d₁ d₂, e₁ = d₁.toType ∧ e₂ = d₂.toType ∧ R t d₁ d₂) :
    ∀ (t : Option IdlType) {e₁ e₂ : TypeExpr},
      resolveElement file₁ owner₁ find₁ name₁ t = .ok e₁ →
        resolveElement file₂ owner₂ find₂ name₂ t = .ok e₂ →
          ∃ item, t = some item ∧ TypeExpr.Pairs R item e₁ e₂
  | none, _, _, h₁, _ => by cases h₁
  | some t, _, _, h₁, h₂ => ⟨t, rfl, pairs_resolveWith hfind t h₁ h₂⟩
termination_by structural t => t

end

end Pairs

/-! ## Signature and field -/

namespace Library

/-- At most one of the places that are asked declares the bare name as a type. -/
def Single (l : Library) (p : Place) (t : IdlType) : Prop :=
  ∀ q ∈ l.searched p, ∀ q' ∈ l.searched p,
    (q.directory.declared? DeclKind.isType t.bareName).isSome →
      (q'.directory.declared? DeclKind.isType t.bareName).isSome → q.home = q'.home

instance (l : Library) (p : Place) (t : IdlType) : Decidable (l.Single p t) :=
  inferInstanceAs (Decidable (∀ q ∈ l.searched p, ∀ q' ∈ l.searched p,
    (q.directory.declared? DeclKind.isType t.bareName).isSome →
      (q'.directory.declared? DeclKind.isType t.bareName).isSome → q.home = q'.home))

/-- The includes that `p'` has beyond `p` make no difference to the type as it is written: there
are none, or its name is near or sole. -/
inductive Steady (l : Library) (p p' : Place) (t : IdlType) : Prop
  | unchanged (h : p' = p)
  | near (hreference : ∀ r ∈ t.reference, r.index < p.directory.includes.length)
    (h : l.Near p t.name DeclKind.isType)
  | sole (hreference : ∀ r ∈ t.reference, r.index < p.directory.includes.length)
    (hbare : t.splitName.1 = none) (h : l.Sole p t.bareName DeclKind.isType)

/-- A signature that is resolved at `now` makes `sig` of a name, and a field that was resolved at
`source` made `field` of it. -/
structure Signs (l : Library) (source now : Place) (t : IdlType) (sig field : Located) : Prop where
  /-- The field means what the name means as it is written. -/
  written : ∀ owner, l.locate source t owner = .ok field
  signed : l.Signed now t sig
  /-- A name taken from an include is the include's own, if it declares a type of this name. -/
  taken : ∀ q found, l.Requalifies now t q sig →
    q.directory.declared? DeclKind.isType t.bareName = some found →
      sig.home = q.home ∧ sig.name = found.name
  /-- Two declarations of one file are one declaration. -/
  alike : t.AsksBare → sig.home = field.home → sig.name = field.name
  /-- A name that a single file declares means the same declaration. -/
  single : t.AsksBare → l.Single source t → sig.home = field.home ∧ sig.name = field.name
  /-- A name that is not taken from an include means the same if nothing came between. -/
  steady : (∀ q d, ¬ l.Requalifies now t q d) → l.Steady source now t →
    sig.home = field.home ∧ sig.name = field.name

end Library

/-- What is reached after includes were appended was reached before, with the same names. -/
theorem Place.Extends.reaches {l : Library} {p p' q : Place} (h : p.Extends l p')
    (hq : l.Reaches p' q) : ∃ q', l.Reaches p q' ∧ q'.home = q.home ∧
      q'.directory.declared = q.directory.declared := by
  rcases hq with rfl | ⟨file, hq, hleads⟩
  · exact ⟨p, .inl rfl, h.home.symm, h.declared.symm⟩
  · exact ⟨q, .inr ⟨file, hq, hleads.trans h.leads⟩, rfl, rfl⟩

namespace Library

variable {l : Library} {source now : Place} {t : IdlType} {sig field : Located}

theorem meaning?_of_locate {p : Place} {owner : String} {d : Located}
    (h : l.locate p t owner = .ok d) : ∃ found, d.name = found.name ∧
      l.meaning? p t.name t.reference DeclKind.isType = some (d.home, found) := by
  obtain ⟨q, found, hfound, hhome, hname⟩ := locate_eq_ok h
  refine ⟨found, hname, ?_⟩
  rw [meaning?, hfound, hhome]
  rfl

section Resolved

variable (hl : l.Closed) (hp : source.Covered l)
  (hown : ¬ l.Leads source.directory.present source.directory.filename)
  (hnow : source.Extends l now)
include hl hp hown hnow

/-- Where the includes in between make no difference, a type is located as it was. -/
theorem locate_steady (h : l.Steady source now t) {owner owner' : String} {d d' : Located}
    (hd : l.locate now t owner = .ok d) (hd' : l.locate source t owner' = .ok d') :
    d.home = d'.home ∧ d.name = d'.name := by
  have hmeaning : l.meaning? now t.name t.reference DeclKind.isType =
      l.meaning? source t.name t.reference DeclKind.isType := by
    cases h with
    | unchanged h => rw [h]
    | near hreference h => exact hnow.meaning?_eq_of_near hreference h
    | sole hreference hbare h => exact hnow.meaning?_eq_of_sole hl hp hown hreference hbare h
  obtain ⟨found, hname, hmeans⟩ := meaning?_of_locate hd
  obtain ⟨found', hname', hmeans'⟩ := meaning?_of_locate hd'
  obtain ⟨hhome, rfl⟩ :=
    Prod.mk.inj (Option.some.inj (hmeans.symm.trans (hmeaning.trans hmeans')))
  exact ⟨hhome, hname.trans hname'.symm⟩

/-- What a signature and a field make of one name is related. -/
theorem signs_of_resolved (hhere : source.home = .here) (hsigned : l.Signed now t sig)
    (hwritten : ∀ owner, l.locate source t owner = .ok field) : l.Signs source now t sig field := by
  -- both declarations stand at places that the source asks
  obtain ⟨q, found, hq, hhome, hname, hfound⟩ := hsigned.reaches
  obtain ⟨q₁, hq₁, hhome₁, hdeclared⟩ := hnow.reaches hq
  obtain ⟨q₂, found₂, hq₂, hhome₂, hname₂, hfound₂⟩ := reaches_of_locate (hwritten "")
  have hfound₁ : t.AsksBare → q₁.directory.declared? DeclKind.isType t.bareName = some found := by
    intro hbare
    rw [← hfound hbare, Directory.declared?, Directory.declared?, hdeclared]
  have halike : t.AsksBare → sig.home = field.home → sig.name = field.name := by
    intro hbare hsame
    obtain rfl : q₁ = q₂ := eq_of_home hhere hq₁ hq₂
      (hhome₁.trans (hhome.symm.trans (hsame.trans hhome₂)))
    obtain rfl : found = found₂ :=
      Option.some.inj ((hfound₁ hbare).symm.trans (hfound₂ hbare))
    exact hname.trans hname₂.symm
  refine ⟨hwritten, hsigned, ?_, halike, ?_, ?_⟩
  · rintro q found ⟨-, _, _, _, -, hoffers, -⟩ hfound
    exact hoffers.of_declared? hfound
  · intro hbare hsingle
    have hsame : q₁.home = q₂.home :=
      hsingle q₁ ((mem_searched_iff hl hp hown).mpr hq₁) q₂ ((mem_searched_iff hl hp hown).mpr hq₂)
        (Option.isSome_of_eq_some (hfound₁ hbare)) (Option.isSome_of_eq_some (hfound₂ hbare))
    have hhomes : sig.home = field.home :=
      hhome.trans (hhome₁.symm.trans (hsame.trans hhome₂.symm))
    exact ⟨hhomes, halike hbare hhomes⟩
  · intro hnone hsteady
    have hlocated : ∀ owner, l.locate now t owner = .ok sig := by
      rcases hsigned with ⟨q, hrequalifies⟩ | ⟨-, hlocated⟩
      · exact absurd hrequalifies (hnone q sig)
      · exact hlocated
    exact locate_steady hl hp hown hnow hsteady (hlocated "") (hwritten "")

/-- The type of an argument as the signature has it and as the field has it. -/
theorem pairs_signature (hhere : source.home = .here) {owner owner' : String} {e e' : TypeExpr}
    (h : l.resolveInSignature now t owner = .ok e) (h' : l.resolveType source t owner' = .ok e') :
    TypeExpr.Pairs (l.Signs source now) t e e' := by
  refine pairs_resolveWith (fun t e₁ e₂ h₁ h₂ => ?_) t h h'
  obtain ⟨sig, rfl, hsigned⟩ := signed_of_resolved h₁
  obtain ⟨field, hfield, rfl⟩ := map_eq_ok.mp h₂
  exact ⟨sig, field, rfl, rfl,
    signs_of_resolved hl hp hown hnow hhere hsigned (locate_owner hfield)⟩

end Resolved

end Library

/-! ## Finished functions -/

/-- The argument has the name of the field, its type in the signature and the type of the field
have one shape, and what they make of each name in it is related. -/
structure Param.StandsFor (param : Param) (g : Language) (l : Library) (k : Linkage)
    (source now : Place) (owner structureName : String) (field : Field) : Prop where
  named : param.source = field.decl.name
  types : ∃ sig q r,
    l.resolveInSignature now field.decl.type (owner ++ "." ++ field.decl.name) = .ok sig ∧
      param.type = sig.written g q ∧ (∀ home ∈ sig.homes, k.Qualifies g l home (q home)) ∧
      field.ResolvesTo g l k source structureName r ∧
      TypeExpr.Pairs (l.Signs source now) field.decl.type sig r.typeExpr

namespace Scope.Built

variable {s : Scope} {o : Options} {t : Tree} {l m : Library} {k : Linkage} (h : s.Built o t m k)
include h

/-- The parameters of a function are its arguments in order, and there is a structure for them. -/
theorem function_follows {v : Service} (hv : v ∈ s.services) {f : Function}
    (hf : f ∈ v.functions) :
    f.argumentNames.map NamedParam.source = f.decl.arguments.map FieldDecl.name ∧
      ∃ st ∈ s.structures.all, st.madeUp = true ∧ st.name = f.argsStruct ∧
        st.decl = Site.argsStruct v.decl f.decl := by
  obtain ⟨r, resolved, hcomes, -, -, -, hservices⟩ := h.rostered
  obtain ⟨hsources, listed, hlisted, hrest⟩ :=
    hcomes.mirrors.follows _ (hservices v hv) _ (h.function_named hv hf)
  rw [← hcomes.map_structures, StructureLists.all_map] at hlisted
  obtain ⟨st, hst, rfl⟩ := List.mem_map.mp hlisted
  exact ⟨hsources, st, hst, hrest⟩

/-- The slots of a structure that was made up are those of its fields, in order. -/
theorem slots_of_madeUp {st : Structure Field} (hst : st ∈ s.structures.all)
    (hmade : st.madeUp = true) :
    List.Forall₂ (fun f slot => slot.field.decl = f ∧ slot.field.origin = none) st.decl.fields
      st.slots := by
  obtain ⟨r, resolved, hcomes⟩ := h.comes
  have hplans := (hcomes.lays hst).inOrder (.inr hmade)
  rw [Structure.slots_map, List.map_map, List.forall₂_map_right_iff] at hplans
  exact hplans.imp fun f slot hplans =>
    ⟨congrArg Prod.fst hplans.field, congrArg Prod.snd hplans.field⟩

/-- The types of the arguments of a function were found between source and finished file, and
are written with the finished qualifiers of their homes. -/
theorem arguments_resolved (hle : m ≤ l) {v : Service} (hv : v ∈ s.services) {f : Function}
    (hf : f ∈ v.functions) : ∃ is types q, s.Meanwhile t.includes.length is ∧
      List.Forall₂ (fun a type => l.resolveInSignature (s.within is) a.type
        (v.decl.name ++ "." ++ f.decl.name ++ "." ++ a.name) = .ok type) f.decl.arguments types ∧
      (∀ p ∈ f.argumentNames.zip types, ∀ home ∈ p.2.homes,
        s.linkage.Qualifies o.language l home (q home)) ∧
      f.arguments = (f.argumentNames.zip types).map fun p =>
        { p.1 with type := p.2.written o.language q } := by
  obtain ⟨k₁, types, response, throws, hspans, hvisit, htypes, harguments⟩ :=
    h.function_resolved hv hf
  have hcovered := h.covered_within hspans
  -- the arguments are written before the response
  rw [RenderEnv.signatureHomes, RenderEnv.visit_append] at hvisit
  have hvisited := (RenderEnv.le_visit _ _ _).trans hvisit
  have hend := (RenderEnv.le_visit _ k₁ _).trans hvisited
  refine ⟨k₁.includes, types, _, h.meanwhile hspans hend, ?_, ?_, harguments⟩
  · refine htypes.imp fun a type htype => ?_
    rwa [Library.resolveInSignature_eq hle h.closed hcovered]
  · have hholds : ∀ home ∈ (f.argumentNames.zip types).flatMap (fun p => p.2.homes),
        m.Holds home := by
      intro home hhome
      obtain ⟨p, hp, hhome⟩ := List.mem_flatMap.mp hhome
      obtain ⟨a, -, htype⟩ := exists_of_mem_forall₂ htypes (List.of_mem_zip hp).2
      exact holds_resolveInSignature h.closed hcovered htype home hhome
    intro p hp home hhome
    exact (Linkage.Qualifies.of_visit hholds hvisited home
      (List.mem_flatMap.mpr ⟨p, hp, hhome⟩)).mono hle

/-- The arguments of a function stand for the fields of every structure made up for it. -/
theorem arguments_standFor (hl : l.Closed) (hle : m ≤ l) {v : Service} (hv : v ∈ s.services)
    {f : Function} (hf : f ∈ v.functions) : ∃ is, s.Meanwhile t.includes.length is ∧
      ∀ st ∈ s.structures.all, st.madeUp = true → st.decl = Site.argsStruct v.decl f.decl →
        List.Forall₂ (fun param slot => param.StandsFor o.language l s.linkage
            (s.unwritten t.includes.length) (s.within is) (v.decl.name ++ "." ++ f.decl.name)
            st.source slot.field)
          f.arguments st.slots := by
  obtain ⟨is, types, q, hmeanwhile, htypes, hqualifies, harguments⟩ :=
    h.arguments_resolved hle hv hf
  refine ⟨is, hmeanwhile, fun st hst hmade hdecl => ?_⟩
  have hslots := h.slots_of_madeUp hst hmade
  rw [hdecl, Site.argsStruct] at hslots
  have hsources := (h.function_follows hv hf).1
  have hlength : f.argumentNames.length = f.decl.arguments.length := by
    simpa using congrArg List.length hsources
  obtain ⟨hcovered, hown⟩ := h.source_place hle
  have hextends := h.extends_meanwhile hle hmeanwhile
  rw [harguments]
  refine List.forall₂_iff_get.mpr ⟨?_, fun i hi hi' => ?_⟩
  · rw [List.length_map, List.length_zip, hlength, ← htypes.length_eq, min_self]
    exact hslots.length_eq
  -- the argument at this position, in all lists
  have hdecls : i < f.decl.arguments.length := hslots.length_eq ▸ hi'
  have hnames : i < f.argumentNames.length := hlength ▸ hdecls
  have htype := htypes.get hdecls (htypes.length_eq ▸ hdecls)
  obtain ⟨hslot, horigin⟩ := hslots.get hdecls hi'
  have hpair := List.getElem_mem (List.length_map _ ▸ hi)
  simp only [List.get_eq_getElem, List.getElem_map, List.getElem_zip] at htype hslot horigin hpair ⊢
  have hname := List.getElem_of_eq hsources (by rwa [List.length_map])
  rw [List.getElem_map, List.getElem_map] at hname
  obtain ⟨r, hr⟩ := h.resolvesTo hle hst
    (List.mem_flatMap.mpr ⟨st.slots[i], List.getElem_mem hi', List.mem_cons_self⟩)
  rw [← hslot] at hname htype
  refine ⟨hname, _, q, r, htype, rfl, hqualifies _ hpair, hr, ?_⟩
  obtain ⟨-, hfield, -⟩ := resolveField_eq_ok hr.resolved
  rw [Library.declaringPlace, horigin, h.unwritten_eq] at hfield
  rw [h.unwritten_eq]
  exact Library.pairs_signature hl hcovered hown hextends rfl htype hfield

end Scope.Built

/-- **A signature agrees with the structure of its arguments on all but some qualified names.** In
every scope that a run comes to, every function has a structure that was made up from it, whose
fields are its arguments in order. In the signature an argument has the shape of its field. A
field means what a name means as it is written. So does the signature, unless a direct include
offers the bare name of a qualified one; then it takes the first offer. The two mean the same
declaration if a single file declares the name, and without an offer also if the includes
appended in between make no difference. -/
theorem signature_alike (o : Options) (requests : List Request) {file : String} {s : Scope}
    (hs : ((Run.new o).serveAll requests).library.scope? file = some s) :
    ∃ t : Tree, t.Among (requests.flatMap Request.trees) ∧ s.document = t.document ∧
      ∀ v ∈ s.services, ∀ f ∈ v.functions,
        (∃ st ∈ s.structures.all, st.madeUp = true ∧ st.name = f.argsStruct ∧
          st.decl = Site.argsStruct v.decl f.decl) ∧
        ∃ is, s.Meanwhile t.includes.length is ∧
          ∀ st ∈ s.structures.all, st.madeUp = true → st.decl = Site.argsStruct v.decl f.decl →
            List.Forall₂ (fun param slot =>
                param.StandsFor o.language ((Run.new o).serveAll requests).library s.linkage
                  (s.unwritten t.includes.length) (s.within is)
                  (v.decl.name ++ "." ++ f.decl.name) st.source slot.field)
              f.arguments st.slots := by
  have hlibrary := Run.sound_serveAll o requests
  obtain ⟨t, m, k, ht, hle, hbuilt⟩ := hlibrary.built file s hs
  refine ⟨t, ht, Document.document_of_scope hbuilt.scope, fun v hv f hf => ?_⟩
  exact ⟨(hbuilt.function_follows hv hf).2, hbuilt.arguments_standFor hlibrary.closed hle hv hf⟩

namespace Sample

/-- A shop that takes an item and tags from the second of two files with an item. -/
def shop : Tree where
  document := { Document.empty "shop.thrift" with
    services := [⟨"Shop", none, none, [⟨"put", false, true, .named "bool" .bool,
      [⟨1, "item", .default, .named "catalog.Item" .struct, none, []⟩,
        ⟨2, "tags", .default, ⟨"list", .list, none, some (.named "catalog.Tag" .enum), none, []⟩,
          none, []⟩], [], []⟩], []⟩] }
  includes := [
    ⟨"stock.thrift", true, ⟨{ Document.empty "stock.thrift" with
      structs := [⟨"struct", "Item", [], [], none⟩] }, []⟩⟩,
    ⟨"catalog.thrift", true, ⟨{ Document.empty "catalog.thrift" with
      structs := [⟨"struct", "Item", [], [], none⟩], enums := [⟨"Tag", [], []⟩] }, []⟩⟩]

/-- The library of a run that has built the shop. -/
def opened : Library := ((Run.new {}).serveAll [.build shop]).library

end Sample

set_option maxRecDepth 100000 in
/-- The tags are the same in the signature and in the structure: one file declares them. -/
theorem signature_alike_tags : ∃ s, Sample.opened.scope? "shop.thrift" = some s ∧
    ∃ v ∈ s.services, ∃ f ∈ v.functions, ∃ param ∈ f.arguments, ∃ st ∈ s.structures.all,
      ∃ slot ∈ st.slots, st.decl = Site.argsStruct v.decl f.decl ∧ param.source = "tags" ∧
        param.type.text = "[]catalog.Tag" ∧ slot.field.type.text = "[]catalog.Tag" ∧
        ∃ count is item sig field, item.name = "catalog.Tag" ∧
          Sample.opened.Signs (s.unwritten count) (s.within is) item sig field ∧
          sig.home = field.home ∧ sig.name = field.name := by
  have hfound : (Sample.opened.scope? "shop.thrift").any (fun s =>
      s.linkage.includes.length == 2 && s.services.any fun v => v.functions.any fun f =>
        (f.arguments.all fun param =>
          param.source != "tags" || param.type.text == "[]catalog.Tag") &&
        s.structures.all.all fun st => st.name != f.argsStruct || st.slots.any fun slot =>
          slot.field.decl.name == "tags" && slot.field.type.text == "[]catalog.Tag" &&
            slot.field.decl.type.category == .list && slot.field.decl.type.value.any fun item =>
              item.name == "catalog.Tag" && item.category == .enum && item.reference.isNone &&
                (List.range 3).all fun n =>
                  decide (Sample.opened.Single (s.unwritten n) item)) = true := by
    decide +kernel
  obtain ⟨s, hs, hfound⟩ := (Option.any_eq_true _ _).mp hfound
  simp only [Bool.and_eq_true, List.any_eq_true, List.all_eq_true, Bool.or_eq_true, bne_iff_ne,
    beq_iff_eq, Option.any_eq_true, decide_eq_true_eq, Option.isNone_iff_eq_none] at hfound
  obtain ⟨hlength, v, hv, f, hf, htexts, hslots⟩ := hfound
  obtain ⟨t, -, -, halike⟩ := signature_alike {} [.build Sample.shop] hs
  obtain ⟨⟨st, hst, hmade, hname, hdecl⟩, is, -, hstands⟩ := halike v hv f hf
  obtain ⟨slot, hslot, ⟨⟨hsource, htext⟩, hlist⟩, item, hitem, hplain, hsingle⟩ :=
    (hslots st hst).resolve_left (absurd hname)
  obtain ⟨⟨hcalled, henum⟩, hnone⟩ := hplain
  obtain ⟨param, hparam, hnamed, sig, q, r, -, -, -, -, hpairs⟩ :=
    exists_of_mem_forall₂ (hstands st hst hmade hdecl) hslot
  obtain ⟨item', a, b, hitem', -, -, hpairs⟩ := hpairs.items hlist
  obtain rfl : item' = item := Option.some.inj (hitem'.symm.trans hitem)
  obtain ⟨d, d', -, -, hsigns⟩ := hpairs.related (by rw [henum]; rfl) (by rw [henum]; rfl)
  -- the tree has no more includes than the finished file
  have hcount : s.unwritten t.includes.length = s.unwritten (min t.includes.length 2) := by
    rw [Scope.unwritten, Scope.unwritten, ← hlength, ← List.take_eq_take_min]
  have halone := hsingle (min t.includes.length 2) (by simp)
  rw [← hcount] at halone
  have hbare : item'.AsksBare := fun r hr => by rw [hnone] at hr; cases hr
  have hparamText := (htexts param hparam).resolve_left (absurd (hnamed.trans hsource))
  exact ⟨s, hs, v, hv, f, hf, param, hparam, st, hst, slot, hslot, hdecl, hnamed.trans hsource,
    hparamText, htext, _, _, item', d, d', hcalled, hsigns, hsigns.single hbare halone⟩

set_option maxRecDepth 100000 in
/-- The item is the one of the catalog in the structure, as the function asks for. In the
signature it is the one of the stock, because that is included first. -/
theorem signature_apart : ∃ s, Sample.opened.scope? "shop.thrift" = some s ∧
    ∃ v ∈ s.services, ∃ f ∈ v.functions, ∃ param ∈ f.arguments, ∃ st ∈ s.structures.all,
      ∃ slot ∈ st.slots, st.decl = Site.argsStruct v.decl f.decl ∧
        (f.decl.arguments.map FieldDecl.name).Nodup ∧ param.source = "item" ∧
        slot.field.decl.name = "item" ∧ slot.field.decl.type.name = "catalog.Item" ∧
        param.type.text = "*stock.Item" ∧ slot.field.type.text = "*catalog.Item" ∧
        Sample.opened.resolveInSignature (s.within s.linkage.includes) slot.field.decl.type
            "Shop.put.item" = .ok (.declared (.foreign "stock.thrift") "Item" .struct) ∧
        Sample.opened.resolveType (s.unwritten Sample.shop.includes.length)
            slot.field.decl.type (st.source ++ ".item") =
          .ok (.declared (.foreign "catalog.thrift") "Item" .struct) := by
  have hfound : (Sample.opened.scope? "shop.thrift").any (fun s =>
      s.services.any fun v => v.functions.any fun f =>
        decide (f.decl.arguments.map FieldDecl.name).Nodup && (f.arguments.any fun param =>
          param.source == "item" && param.type.text == "*stock.Item") &&
        s.structures.all.all fun st => st.name != f.argsStruct || st.slots.any fun slot =>
          slot.field.decl.name == "item" && slot.field.decl.type.name == "catalog.Item" &&
            slot.field.type.text == "*catalog.Item" &&
            ((Sample.opened.resolveInSignature (s.within s.linkage.includes) slot.field.decl.type
              "Shop.put.item").toOption ==
                some (.declared (.foreign "stock.thrift") "Item" .struct)) &&
            (Sample.opened.resolveType (s.unwritten Sample.shop.includes.length)
              slot.field.decl.type (st.source ++ ".item")).toOption ==
                some (.declared (.foreign "catalog.thrift") "Item" .struct)) = true := by
    decide +kernel
  obtain ⟨s, hs, hfound⟩ := (Option.any_eq_true _ _).mp hfound
  simp only [Bool.and_eq_true, List.any_eq_true, List.all_eq_true, Bool.or_eq_true, bne_iff_ne,
    beq_iff_eq, decide_eq_true_eq, toOption_eq_some] at hfound
  obtain ⟨v, hv, f, hf, ⟨hdistinct, param, hparam, hsource, htext⟩, hslots⟩ := hfound
  obtain ⟨t, m, k, -, -, hbuilt⟩ :=
    (Run.sound_serveAll {} [.build Sample.shop]).built _ s hs
  obtain ⟨-, st, hst, -, hname, hdecl⟩ := hbuilt.function_follows hv hf
  obtain ⟨slot, hslot, ⟨⟨⟨hnamed, htype⟩, hfield⟩, hsig⟩, hresolved⟩ :=
    (hslots st hst).resolve_left (absurd hname)
  exact ⟨s, hs, v, hv, f, hf, param, hparam, st, hst, slot, hslot, hdecl, hdistinct, hsource,
    hnamed, htype, htext, hfield, hsig, hresolved⟩

end IdlScope

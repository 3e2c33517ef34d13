import IdlScope.Proofs.Lookups
import IdlScope.Proofs.Signatures

/-!
# Typedefs — what a name means behind its second names

A typedef names a type that may be named by a typedef again, in another file with includes of
its own. A look-up counts the typedefs that it goes through and gives up behind the last one
that it may. What it is to find is described without counting:

* **`Library.Link`** — a name that means a typedef leads to the target, as the file that
  declares the typedef mentions it.
* **`Library.Ends`** — other types are a category at once: base types, containers, structures
  and enums.
* **`behindTypedef_eq_some`** — the look-up finds what is at the end of the links, if there
  are few enough.
* **`locate_follows_typedefs`** — a name is located exactly if at most 33 typedefs lead from it
  to a category; links that are missing, too many or in a circle leave the name unresolved.
-/

namespace IdlScope

/-- A base type or a container is what it is; any other type is looked up by its name. -/
def IdlType.IsNamed (t : IdlType) : Prop :=
  t.category.isBase = false ∧ t.category.isContainer = false

instance (t : IdlType) : Decidable t.IsNamed :=
  inferInstanceAs (Decidable (_ ∧ _))

theorem IdlType.not_isNamed {t : IdlType} :
    ¬ t.IsNamed ↔ (t.category.isBase || t.category.isContainer) = true := by
  rw [IsNamed, ← Bool.or_eq_false_iff, Bool.not_eq_false]

instance (t : IdlType) : Decidable t.AsksBare :=
  inferInstanceAs (Decidable (∀ r ∈ t.reference, Library.referenceKey r t.bareName = t.bareName))

/-- A type as a file mentions it. -/
structure Mention where
  place : Place
  type : IdlType

namespace Library

/-- What the mentioned type is declared as, and where. -/
def declarationOf? (l : Library) (a : Mention) : Option (Place × Declared) :=
  l.declaration? a.place a.type.name a.type.reference DeclKind.isType

/-- The mentioned type is of the category, and no typedef is in between. -/
inductive Ends (l : Library) (a : Mention) : Category → Prop where
  | plain (h : ¬ a.type.IsNamed) : Ends l a a.type.category
  | structLike (h : a.type.IsNamed) {q : Place} {name : String} {kind : StructKind}
      (hq : l.declarationOf? a = some (q, ⟨name, .structLike kind⟩)) : Ends l a kind.category
  | enum (h : a.type.IsNamed) {q : Place} {name : String}
      (hq : l.declarationOf? a = some (q, ⟨name, .enum⟩)) : Ends l a .enum

/-- The mentioned type is looked up by its name and declared nowhere. -/
def Astray (l : Library) (a : Mention) : Prop :=
  a.type.IsNamed ∧ l.declarationOf? a = none

/-- The mentioned type is declared as a typedef, whose target is mentioned there. -/
inductive Link (l : Library) (a : Mention) : Mention → Prop where
  | typedef (h : a.type.IsNamed) {q : Place} {name : String}
      (hq : l.declarationOf? a = some (q, ⟨name, .typedef⟩)) {t : TypedefDecl}
      (ht : t ∈ q.directory.document.typedefs) (hname : t.name = a.type.bareName) :
      Link l a ⟨q, t.target⟩

/-- A number of links, one after the other. -/
inductive Chain (l : Library) : Nat → Mention → Mention → Prop where
  | nil (a : Mention) : Chain l 0 a a
  | cons {n : Nat} {a b c : Mention} (h : l.Link a b) (hs : Chain l n b c) : Chain l (n + 1) a c

/-- The mentioned type is of the category behind at most `n` typedefs. -/
def ComesTo (l : Library) (n : Nat) (a : Mention) (c : Category) : Prop :=
  ∃ k ≤ n, ∃ b, l.Chain k a b ∧ l.Ends b c

/-- Whatever the typedefs of the mention lead to is asked for by its bare name, in a file that
declares no name twice. -/
def Orderly (l : Library) (a : Mention) : Prop :=
  ∀ n b, l.Chain n a b → b.type.AsksBare ∧
    (b.place.directory.document.declares.map Prod.fst).Nodup

variable {l : Library} {a b c : Mention} {n k : Nat} {category : Category}

theorem isType_of_declarationOf? {q : Place} {d : Declared}
    (h : l.declarationOf? a = some (q, d)) : d.kind.isType = true := by
  obtain ⟨probe, -, -, hd⟩ := mem_of_first? h
  exact (Option.filter_eq_some_iff.mp hd).2

theorem behindTypedef_succ {q : Place} {name : String} {t : TypedefDecl}
    (ht : q.directory.typedef? name = some t) :
    l.behindTypedef (n + 1) q name =
      if t.target.category.isBase || t.target.category.isContainer then some t.target.category
      else (l.declarationOf? ⟨q, t.target⟩).bind fun found =>
        match found.2.kind with
        | .structLike kind => some kind.category
        | .enum => some .enum
        | _ => l.behindTypedef n found.1 t.target.bareName := by
  rw [behindTypedef, ht]
  rfl

theorem underlying?_typedef {q : Place} {t : IdlType} (ht : t.AsksBare) (name : String) :
    l.underlying? q t ⟨name, .typedef⟩ = l.behindTypedef maxTypedefs q t.bareName := by
  rw [underlying?]
  cases hr : t.reference with
  | none => rfl
  | some r => exact congrArg (l.behindTypedef maxTypedefs q) (ht r hr)

/-- A name whose declaration is found is located with the category of the declaration, if it
has one. -/
theorem locate_of_declarationOf? {p q : Place} {t : IdlType} {d : Declared}
    (h : l.declarationOf? ⟨p, t⟩ = some (q, d)) (owner : String) :
    l.locate p t owner =
      match l.underlying? q t d with
      | some category => .ok ⟨q.home, d.name, d.kind, category⟩
      | none => .error (.unresolvedType p.directory.filename owner t.name) := by
  rw [locate, show l.declaration? p t.name t.reference DeclKind.isType = _ from h]
  dsimp only [Option.bind_eq_bind, Option.bind_some]
  cases l.underlying? q t d <;> rfl

/-- A name that cannot be located is reported as it was written. -/
theorem locate_eq_error {p : Place} {t : IdlType} {owner : String} {e : ResolveError}
    (h : l.locate p t owner = .error e) :
    e = .unresolvedType p.directory.filename owner t.name := by
  cases hfound : l.declarationOf? ⟨p, t⟩ with
  | none =>
      rw [locate_of_declaration?_eq_none owner hfound] at h
      exact (Except.error.inj h).symm
  | some found =>
      rw [locate_of_declarationOf? hfound owner] at h
      split at h
      · cases h
      · exact (Except.error.inj h).symm

/-! ## One link -/

theorem Ends.ne_typedef (h : l.Ends a category) :
    category ≠ .typedef ∧ category ≠ .service := by
  cases h with
  | plain h =>
      rw [IdlType.not_isNamed] at h
      constructor
      · intro hcategory
        rw [hcategory] at h
        cases h
      · intro hcategory
        rw [hcategory] at h
        cases h
  | @structLike _ _ _ kind _ => cases kind <;> exact ⟨by decide, by decide⟩
  | enum => exact ⟨by decide, by decide⟩

theorem Ends.unique {other : Category} (h : l.Ends a category) (h' : l.Ends a other) :
    category = other := by
  cases h with
  | plain h =>
      cases h' with
      | plain => rfl
      | structLike hnamed => exact absurd hnamed h
      | enum hnamed => exact absurd hnamed h
  | structLike hnamed hq =>
      cases h' with
      | plain h => exact absurd hnamed h
      | structLike _ hq' =>
          cases hq.symm.trans hq'
          rfl
      | enum _ hq' => cases hq.symm.trans hq'
  | enum hnamed hq =>
      cases h' with
      | plain h => exact absurd hnamed h
      | structLike _ hq' => cases hq.symm.trans hq'
      | enum => rfl

/-- A type that has a category at once is no typedef. -/
theorem Ends.not_link (h : l.Ends a category) : ¬ l.Link a b := by
  rintro ⟨hnamed, hq, -, -⟩
  cases h with
  | plain h => exact h hnamed
  | structLike _ hq' => cases hq.symm.trans hq'
  | enum _ hq' => cases hq.symm.trans hq'

theorem Astray.not_link (h : l.Astray a) : ¬ l.Link a b := by
  rintro ⟨-, hq, -, -⟩
  cases h.2.symm.trans hq

theorem Astray.not_ends (h : l.Astray a) : ¬ l.Ends a category := by
  intro hends
  cases hends with
  | plain hplain => exact hplain h.1
  | structLike _ hq => cases h.2.symm.trans hq
  | enum _ hq => cases h.2.symm.trans hq

/-- A typedef is the only one of its name. -/
theorem typedef?_eq_some {q : Place}
    (hnames : (q.directory.document.declares.map Prod.fst).Nodup) {t : TypedefDecl}
    (ht : t ∈ q.directory.document.typedefs) : q.directory.typedef? t.name = some t := by
  have hnodup : (q.directory.document.typedefs.map TypedefDecl.name).Nodup := by
    rw [Document.declares, List.map_append, List.map_append] at hnames
    have htypedefs := (List.nodup_append.mp (List.nodup_append.mp hnames).1).2.1
    rwa [List.map_map] at htypedefs
  cases hfound : q.directory.typedef? t.name with
  | none => exact absurd (List.find?_eq_none.mp hfound t ht) (by simp)
  | some t' =>
      have hname : t'.name = t.name := by simpa using List.find?_some hfound
      rw [List.inj_on_of_nodup_map hnodup (List.mem_of_find?_eq_some hfound) ht hname]

theorem Orderly.of_link (h : l.Orderly a) (hab : l.Link a b) : l.Orderly b :=
  fun n c hbc => h (n + 1) c (.cons hab hbc)

theorem Link.unique (h : l.Orderly a) (hab : l.Link a b) (hac : l.Link a c) : b = c := by
  have hnames := (h.of_link hab 0 b (.nil b)).2
  obtain ⟨-, hq, ht, hname⟩ := hab
  obtain ⟨-, hq', ht', hname'⟩ := hac
  obtain ⟨rfl, -⟩ := Prod.mk.inj (Option.some.inj (hq.symm.trans hq'))
  have htypedef := typedef?_eq_some hnames ht
  rw [hname, ← hname', typedef?_eq_some hnames ht'] at htypedef
  rw [Option.some.inj htypedef]

/-! ## Chains of links -/

theorem Chain.append (hab : l.Chain n a b) (hbc : l.Chain k b c) : l.Chain (n + k) a c := by
  induction hab with
  | nil a =>
      rw [Nat.zero_add]
      exact hbc
  | @cons n _ _ _ h _ ih =>
      rw [Nat.add_right_comm]
      exact .cons h (ih hbc)

/-- A chain may be cut anywhere. -/
theorem Chain.split (h : l.Chain (n + k) a c) : ∃ b, l.Chain n a b ∧ l.Chain k b c := by
  induction n generalizing a with
  | zero =>
      rw [Nat.zero_add] at h
      exact ⟨a, .nil a, h⟩
  | succ n ih =>
      rw [Nat.add_right_comm] at h
      obtain - | ⟨hlink, hs⟩ := h
      obtain ⟨b, hab, hbc⟩ := ih hs
      exact ⟨b, .cons hlink hab, hbc⟩

theorem Chain.unique (h : l.Orderly a) (hab : l.Chain n a b) (hac : l.Chain n a c) : b = c := by
  induction hab with
  | nil =>
      cases hac
      rfl
  | cons hlink _ ih =>
      obtain - | ⟨hlink', hs⟩ := hac
      obtain rfl := Link.unique h hlink hlink'
      exact ih (h.of_link hlink) hs

/-- Behind a mention that leads no further there is no longer chain. -/
theorem Chain.le_of_not_link (h : l.Orderly a) (hab : l.Chain k a b) (hb : ∀ b', ¬ l.Link b b')
    (hac : l.Chain n a c) : n ≤ k := by
  by_contra hlonger
  obtain ⟨j, rfl⟩ : ∃ j, n = k + (j + 1) := ⟨n - k - 1, by omega⟩
  obtain ⟨b', hab', hs⟩ := hac.split
  obtain rfl := Chain.unique h hab hab'
  obtain - | ⟨hlink, -⟩ := hs
  exact hb _ hlink

/-- A circle goes on for as long as one likes. -/
theorem Chain.circle (h : l.Chain (k + 1) a a) : ∃ b, l.Chain n a b := by
  have hround : ∀ j, l.Chain (j * (k + 1)) a a := by
    intro j
    induction j with
    | zero =>
        rw [Nat.zero_mul]
        exact .nil a
    | succ j ih =>
        rw [Nat.succ_mul]
        exact ih.append h
  have hlong := hround n
  rw [Nat.mul_add_one, Nat.add_comm] at hlong
  obtain ⟨b, hab, -⟩ := hlong.split
  exact ⟨b, hab⟩

/-- A mention with a circle behind it has chains of every length. -/
theorem Chain.into_circle (h : l.Chain n a b) (hb : l.Chain (k + 1) b b) (m : Nat) :
    ∃ c, l.Chain m a c := by
  obtain ⟨c, hc⟩ := hb.circle (n := m)
  have hlong := h.append hc
  rw [Nat.add_comm] at hlong
  obtain ⟨d, hd, -⟩ := hlong.split
  exact ⟨d, hd⟩

/-! ## The end of the links -/

theorem comesTo_of_ends {other : Category} (h : l.Ends a category) :
    l.ComesTo n a other ↔ category = other := by
  constructor
  · rintro ⟨k, -, b, hab, hends⟩
    cases hab with
    | nil => exact h.unique hends
    | cons hlink => exact absurd hlink h.not_link
  · rintro rfl
    exact ⟨0, Nat.zero_le n, a, .nil a, h⟩

theorem not_comesTo_zero (h : l.Link a b) : ¬ l.ComesTo 0 a category := by
  rintro ⟨k, hk, c, hac, hends⟩
  cases hac with
  | nil => exact hends.not_link h
  | cons => cases hk

/-- A link is one typedef more. -/
theorem comesTo_succ (horderly : l.Orderly a) (h : l.Link a b) :
    l.ComesTo (n + 1) a category ↔ l.ComesTo n b category := by
  constructor
  · rintro ⟨k, hk, c, hac, hends⟩
    cases hac with
    | nil => exact absurd h hends.not_link
    | cons hlink hs =>
        obtain rfl := Link.unique horderly h hlink
        exact ⟨_, Nat.le_of_succ_le_succ hk, c, hs, hends⟩
  · rintro ⟨k, hk, c, hbc, hends⟩
    exact ⟨k + 1, Nat.succ_le_succ hk, c, .cons h hbc, hends⟩

/-- What goes astray somewhere does not come to a category. -/
theorem Orderly.not_comesTo_of_astray (h : l.Orderly a) (hab : l.Chain k a b) (hb : l.Astray b) :
    ¬ l.ComesTo n a category := by
  rintro ⟨j, -, c, hac, hends⟩
  have hjk := Chain.le_of_not_link h hab (fun _ => hb.not_link) hac
  have hkj := Chain.le_of_not_link h hac (fun _ => hends.not_link) hab
  obtain rfl : j = k := by omega
  obtain rfl := Chain.unique h hab hac
  exact hb.not_ends hends

/-- What has more typedefs does not come to a category within `n`. -/
theorem Orderly.not_comesTo_of_longer (h : l.Orderly a) (hab : l.Chain (n + 1) a b) :
    ¬ l.ComesTo n a category := by
  rintro ⟨k, hk, c, hac, hends⟩
  have hle := Chain.le_of_not_link h hac (fun _ => hends.not_link) hab
  omega

end Library

/-! ## Links between files that show their names -/

section Shown

open Library

variable {o : Options} {P : Tree → Prop} {l : Library} (hl : l.Sound o P)
  {own : List (Structure NamedField)} {p q : Place} {a b : Mention} {n : Nat}
  {category : Category}

theorem Place.Shows.reaches (hp : p.Shows l own) (h : l.Reaches p q) : q.Shows l own := by
  rcases h with rfl | ⟨file, hfile, -⟩
  · exact hp
  · exact .finished hfile

theorem Library.Link.shows (ha : a.place.Shows l own) (h : l.Link a b) :
    b.place.Shows l own := by
  obtain ⟨-, hq, -, -⟩ := h
  exact ha.reaches (reaches_of_declaration? hq).1

include hl

/-- Where a name is entered as a typedef, the file has a typedef of the name. -/
theorem Place.Shows.exists_typedef (hq : q.Shows l own) {key name : String}
    (h : q.directory.declared? DeclKind.isType key = some ⟨name, .typedef⟩) :
    ∃ t ∈ q.directory.document.typedefs, t.name = key := by
  obtain ⟨w, r, hr, hdocument, hdeclared, -⟩ := hq.exists_roster hl
  rw [Directory.declared?, hdeclared] at h
  have hmem := w.mem_declares_of_get? hr (Option.filter_eq_some_iff.mp h).1
  rw [← hdocument] at hmem
  simp only [Document.declares, List.mem_append, List.mem_map, List.mem_flatMap,
    StructDecl.declares, Option.mem_toList, Option.map_eq_some_iff, Prod.mk.injEq, reduceCtorEq,
    and_false, exists_false, or_false, false_or, and_true] at hmem
  exact hmem

/-- A typedef that a mention is found to be is declared where it is found. -/
theorem Library.Orderly.target (h : l.Orderly a) (ha : a.place.Shows l own)
    (hnamed : a.type.IsNamed) {name : String}
    (hq : l.declarationOf? a = some (q, ⟨name, .typedef⟩)) :
    ∃ t, q.directory.typedef? a.type.bareName = some t ∧ l.Link a ⟨q, t.target⟩ := by
  obtain ⟨probe, hprobe, rfl, hentry⟩ := mem_of_first? hq
  rw [key_of_mem_declarationPath (h 0 a (.nil a)).1 hprobe] at hentry
  have hshows := ha.reaches (reaches_of_declaration? hq).1
  obtain ⟨t, ht, hname⟩ := hshows.exists_typedef hl hentry
  have hlink : l.Link a ⟨probe.place, t.target⟩ := .typedef hnamed hq ht hname
  have hnames := (h.of_link hlink 0 _ (.nil _)).2
  exact ⟨t, hname ▸ typedef?_eq_some hnames ht, hlink⟩

/-- A mention has a category, goes astray, or is a typedef. -/
theorem Library.Orderly.cases (h : l.Orderly a) (ha : a.place.Shows l own) :
    (∃ category, l.Ends a category) ∨ l.Astray a ∨ ∃ b, l.Link a b := by
  by_cases hnamed : a.type.IsNamed
  · cases hfound : l.declarationOf? a with
    | none => exact .inr (.inl ⟨hnamed, hfound⟩)
    | some found =>
        obtain ⟨q, name, kind⟩ := found
        cases kind with
        | structLike kind => exact .inl ⟨kind.category, .structLike hnamed hfound⟩
        | enum => exact .inl ⟨.enum, .enum hnamed hfound⟩
        | typedef =>
            obtain ⟨t, -, hlink⟩ := h.target hl ha hnamed hfound
            exact .inr (.inr ⟨_, hlink⟩)
        | constant | service => cases isType_of_declarationOf? hfound
  · exact .inl ⟨a.type.category, .plain hnamed⟩

/-- Within any number of typedefs a mention comes to a category or goes astray, or it has more
typedefs than that. -/
theorem Library.Orderly.comesTo_or (h : l.Orderly a) (ha : a.place.Shows l own) (n : Nat) :
    (∃ category, l.ComesTo n a category) ∨ (∃ k ≤ n, ∃ b, l.Chain k a b ∧ l.Astray b) ∨
      ∃ b, l.Chain (n + 1) a b := by
  induction n generalizing a with
  | zero =>
      rcases h.cases hl ha with ⟨category, hends⟩ | hastray | ⟨b, hlink⟩
      · exact .inl ⟨category, 0, Nat.le_refl 0, a, .nil a, hends⟩
      · exact .inr (.inl ⟨0, Nat.le_refl 0, a, .nil a, hastray⟩)
      · exact .inr (.inr ⟨b, .cons hlink (.nil b)⟩)
  | succ n ih =>
      rcases h.cases hl ha with ⟨category, hends⟩ | hastray | ⟨b, hlink⟩
      · exact .inl ⟨category, 0, Nat.zero_le _, a, .nil a, hends⟩
      · exact .inr (.inl ⟨0, Nat.zero_le _, a, .nil a, hastray⟩)
      · rcases ih (h.of_link hlink) (hlink.shows ha) with
          ⟨category, hcomes⟩ | ⟨k, hk, c, hbc, hastray⟩ | ⟨c, hbc⟩
        · exact .inl ⟨category, (comesTo_succ h hlink).mpr hcomes⟩
        · exact .inr (.inl ⟨k + 1, Nat.succ_le_succ hk, c, .cons hlink hbc, hastray⟩)
        · exact .inr (.inr ⟨c, .cons hlink hbc⟩)

/-- **Behind a typedef the look-up finds what the links come to.** The look-up starts at the
file that declares the typedef, and the first link leads there as well. -/
theorem behindTypedef_eq_some (h : l.Orderly a) (ha : a.place.Shows l own)
    (hnamed : a.type.IsNamed) {name : String}
    (hq : l.declarationOf? a = some (q, ⟨name, .typedef⟩)) :
    l.behindTypedef n q a.type.bareName = some category ↔ l.ComesTo n a category := by
  induction n generalizing a q name with
  | zero =>
      obtain ⟨t, -, hlink⟩ := h.target hl ha hnamed hq
      exact iff_of_false nofun (not_comesTo_zero hlink)
  | succ n ih =>
      obtain ⟨t, ht, hlink⟩ := h.target hl ha hnamed hq
      have hb := h.of_link hlink
      rw [comesTo_succ h hlink, behindTypedef_succ ht]
      by_cases hplain : t.target.IsNamed
      · rw [if_neg (mt IdlType.not_isNamed.mpr (not_not.mpr hplain))]
        cases hfound : l.declarationOf? ⟨q, t.target⟩ with
        | none =>
            have hastray : l.Astray ⟨q, t.target⟩ := ⟨hplain, hfound⟩
            rw [Option.bind_none]
            exact iff_of_false nofun (hb.not_comesTo_of_astray (.nil _) hastray)
        | some found =>
            obtain ⟨r, name, kind⟩ := found
            rw [Option.bind_some]
            cases kind with
            | structLike kind =>
                rw [comesTo_of_ends (.structLike hplain hfound)]
                exact Option.some_inj
            | enum =>
                rw [comesTo_of_ends (.enum hplain hfound)]
                exact Option.some_inj
            | typedef =>
                exact (ih hb (hlink.shows ha) hplain hfound :)
            | constant | service => cases isType_of_declarationOf? hfound
      · have hends : l.Ends ⟨q, t.target⟩ t.target.category := .plain hplain
        rw [if_pos (IdlType.not_isNamed.mp hplain), comesTo_of_ends hends]
        exact Option.some_inj

/-- A declaration that a name is found as has a category if the links come to one. -/
theorem underlying?_eq_some {t : IdlType} {d : Declared} (h : l.Orderly ⟨p, t⟩)
    (hp : p.Shows l own) (ht : t.IsNamed)
    (hq : l.declarationOf? ⟨p, t⟩ = some (q, d)) :
    l.underlying? q t d = some category ↔ l.ComesTo maxTypedefs ⟨p, t⟩ category := by
  obtain ⟨name, kind⟩ := d
  cases kind with
  | structLike kind =>
      rw [comesTo_of_ends (.structLike ht hq)]
      exact Option.some_inj
  | enum =>
      rw [comesTo_of_ends (.enum ht hq)]
      exact Option.some_inj
  | typedef =>
      rw [underlying?_typedef (h 0 _ (.nil _)).1]
      exact behindTypedef_eq_some hl h hp ht hq
  | constant | service => cases isType_of_declarationOf? hq

/-- A named type is located where its declaration is found, with the category that the links
come to. -/
theorem locate_eq_ok_iff {t : IdlType} (h : l.Orderly ⟨p, t⟩) (hp : p.Shows l own)
    (ht : t.IsNamed) {owner : String} {d : Located} :
    l.locate p t owner = .ok d ↔
      (∃ q e, l.declarationOf? ⟨p, t⟩ = some (q, e) ∧
        d.home = q.home ∧ d.name = e.name ∧ d.kind = e.kind) ∧
      l.ComesTo maxTypedefs ⟨p, t⟩ d.underlying := by
  cases hfound : l.declarationOf? ⟨p, t⟩ with
  | none =>
      rw [locate_of_declaration?_eq_none owner hfound]
      exact iff_of_false nofun fun ⟨⟨_, _, hq, _⟩, _⟩ => (by cases hq)
  | some found =>
      obtain ⟨q, e⟩ := found
      rw [locate_of_declarationOf? hfound owner]
      constructor
      · intro hd
        cases hcategory : l.underlying? q t e with
        | none =>
            rw [hcategory] at hd
            cases hd
        | some category =>
            rw [hcategory] at hd
            obtain rfl := Except.ok.inj hd
            exact ⟨⟨q, e, rfl, rfl, rfl, rfl⟩,
              (underlying?_eq_some hl h hp ht hfound).mp hcategory⟩
      · rintro ⟨⟨q', e', hq', hhome, hname, hkind⟩, hcomes⟩
        obtain ⟨rfl, rfl⟩ := Prod.mk.inj (Option.some.inj hq')
        rw [(underlying?_eq_some hl h hp ht hfound).mpr hcomes, ← hhome, ← hname, ← hkind]

/-- A named type stays unresolved if its typedefs go astray or are too many. -/
theorem locate_eq_error_iff {t : IdlType} (h : l.Orderly ⟨p, t⟩) (hp : p.Shows l own)
    (ht : t.IsNamed) (owner : String) :
    l.locate p t owner = .error (.unresolvedType p.directory.filename owner t.name) ↔
      (∃ n ≤ maxTypedefs, ∃ b, l.Chain n ⟨p, t⟩ b ∧ l.Astray b) ∨
        ∃ b, l.Chain (maxTypedefs + 1) ⟨p, t⟩ b := by
  constructor
  · intro herror
    rcases h.comesTo_or hl hp maxTypedefs with ⟨category, hcomes⟩ | hastray | hlonger
    · cases hfound : l.declarationOf? ⟨p, t⟩ with
      | none => exact absurd hcomes (h.not_comesTo_of_astray (.nil _) ⟨ht, hfound⟩)
      | some found =>
          obtain ⟨q, e⟩ := found
          have hlocated : l.locate p t owner = .ok ⟨q.home, e.name, e.kind, category⟩ :=
            (locate_eq_ok_iff hl h hp ht).mpr ⟨⟨q, e, hfound, rfl, rfl, rfl⟩, hcomes⟩
          cases herror.symm.trans hlocated
    · exact .inl hastray
    · exact .inr hlonger
  · intro hcase
    cases hlocated : l.locate p t owner with
    | error e => rw [locate_eq_error hlocated]
    | ok d =>
        have hcomes := ((locate_eq_ok_iff hl h hp ht).mp hlocated).2
        rcases hcase with ⟨n, -, b, hab, hastray⟩ | ⟨b, hab⟩
        · exact absurd hcomes (h.not_comesTo_of_astray hab hastray)
        · exact absurd hcomes (h.not_comesTo_of_longer hab)

end Shown

/-- **A name is located exactly if at most 33 typedefs lead from it to a category.** A file
looks up a named type on a library that a build has come to: a file that was named, whether it
gets a scope or not, or one of the library. Each typedef is looked up from the file that
declares the one before, and whatever they lead to is asked for by its bare name, in a file that
declares no name twice. Then the look-up ends where the declaration of the name is found, with
the category behind the typedefs, which is neither that of a typedef nor that of a service. It
fails exactly if the typedefs lead to a name that is not declared or are more than 33, as those
are that come back to one of them, and tells the name that was asked for. -/
theorem locate_follows_typedefs {o : Options} {P : Tree → Prop} {l : Library} (hl : l.Sound o P)
    {own : List (Structure NamedField)} {p : Place} (hp : p.Shows l own) (t : IdlType)
    (ht : t.IsNamed) (h : l.Orderly ⟨p, t⟩) (owner : String) :
    (∀ d, l.locate p t owner = .ok d ↔
      (∃ q e, l.declarationOf? ⟨p, t⟩ = some (q, e) ∧
        d.home = q.home ∧ d.name = e.name ∧ d.kind = e.kind) ∧
      l.ComesTo 33 ⟨p, t⟩ d.underlying) ∧
    (∀ d, l.locate p t owner = .ok d → d.underlying ≠ .typedef ∧ d.underlying ≠ .service) ∧
    (∀ e, l.locate p t owner = .error e →
      e = .unresolvedType p.directory.filename owner t.name) ∧
    ((∃ e, l.locate p t owner = .error e) ↔
      (∃ n ≤ 33, ∃ a, l.Chain n ⟨p, t⟩ a ∧ l.Astray a) ∨ ∃ a, l.Chain 34 ⟨p, t⟩ a) ∧
    (∀ n k a, l.Chain n ⟨p, t⟩ a → l.Chain (k + 1) a a →
      l.locate p t owner = .error (.unresolvedType p.directory.filename owner t.name)) := by
  have herror := locate_eq_error_iff hl h hp ht owner
  refine ⟨fun d => locate_eq_ok_iff hl h hp ht, ?_, fun e => Library.locate_eq_error, ?_, ?_⟩
  · intro d hd
    obtain ⟨-, n, -, a, -, hends⟩ := (locate_eq_ok_iff hl h hp ht).mp hd
    exact hends.ne_typedef
  · constructor
    · rintro ⟨e, he⟩
      rw [Library.locate_eq_error he] at he
      exact herror.mp he
    · intro hcase
      exact ⟨_, herror.mpr hcase⟩
  · intro n k a ha hcircle
    exact herror.mpr (.inr (ha.into_circle hcircle 34))

/-- The document declares no name twice, and asks for the targets of its typedefs by their bare
names. -/
def Document.Straight (d : Document) : Prop :=
  (d.declares.map Prod.fst).Nodup ∧ ∀ t ∈ d.typedefs, t.target.AsksBare

instance (d : Document) : Decidable d.Straight :=
  inferInstanceAs (Decidable (_ ∧ ∀ t ∈ d.typedefs, t.target.AsksBare))

namespace Library

variable {l : Library} (hl : ∀ s ∈ l.scopes, s.document.Straight)
include hl

/-- Among straight files a link leads to a straight one, and to a bare name. -/
theorem Link.straight {a b : Mention} (h : l.Link a b)
    (ha : a.place.directory.document.Straight) :
    b.place.directory.document.Straight ∧ b.type.AsksBare := by
  obtain @⟨-, q, name, hq, t, ht, -⟩ := h
  have hplace : q.directory.document.Straight := by
    rcases (reaches_of_declaration? hq).1 with rfl | ⟨file, hfile, -⟩
    · exact ha
    · obtain ⟨s, hs, rfl⟩ := Option.map_eq_some_iff.mp hfile
      exact hl s (mem_of_scope? hs)
  exact ⟨hplace, hplace.2 t ht⟩

/-- Among straight files all mentions of bare names are orderly. -/
theorem orderly_of_straight {a : Mention} (ha : a.place.directory.document.Straight)
    (htype : a.type.AsksBare) : l.Orderly a := by
  intro n b hab
  induction hab with
  | nil => exact ⟨htype, ha.1⟩
  | cons hlink _ ih =>
      obtain ⟨hplace, hbare⟩ := hlink.straight hl ha
      exact ih hplace hbare

end Library

namespace Sample

/-- The typedef with a number stands for the one with the number before it, and the first for a
typedef of the included file, which stands for a structure there. -/
def rungs : Tree where
  document := { Document.empty "user.thrift" with
    typedefs := ⟨"A0", .named "base.Thing" .typedef, []⟩ :: (List.range 32).map fun n =>
      ⟨"A" ++ toString (n + 1), .named ("A" ++ toString n) .typedef, []⟩ }
  includes := [⟨"base.thrift", true, {
    document := { Document.empty "base.thrift" with
      structs := [⟨"struct", "Item", [], [], none⟩]
      typedefs := [⟨"Thing", .named "Item" .struct, []⟩] }
    includes := [] }⟩]

end Sample

set_option maxRecDepth 100000 in
/-- The last typedef but one comes to the structure through 33 typedefs; the last one, which is
one more, is told as unresolved. -/
theorem locate_follows_typedefs_rungs :
    ∃ l s, l = ((Run.new {}).serveAll [.build Sample.rungs]).library ∧
      l.scope? "user.thrift" = some s ∧
      (∃ d, l.locate (s.within s.linkage.includes) (.named "A31" .typedef) "Holder.item" = .ok d ∧
        d.underlying = .struct ∧
        l.ComesTo 33 ⟨s.within s.linkage.includes, .named "A31" .typedef⟩ .struct) ∧
      l.locate (s.within s.linkage.includes) (.named "A32" .typedef) "Holder.item" =
        .error (.unresolvedType s.document.filename "Holder.item" "A32") := by
  have hfound : ∃ l, l = ((Run.new {}).serveAll [.build Sample.rungs]).library ∧
      (l.scopes.all fun s => decide s.document.Straight) = true ∧
      (l.scope? "user.thrift").any (fun s =>
        (l.locate (s.within s.linkage.includes) (.named "A31" .typedef)
          "Holder.item").toOption.any (fun d => decide (d.underlying = .struct)) &&
        (l.locate (s.within s.linkage.includes) (.named "A32" .typedef)
          "Holder.item").toOption.isNone) = true :=
    ⟨_, rfl, by decide +kernel⟩
  obtain ⟨l, hl, hstraight, hscope⟩ := hfound
  obtain ⟨s, hs, hlocated⟩ := (Option.any_eq_true _ _).mp hscope
  rw [Bool.and_eq_true, Option.any_eq_true] at hlocated
  obtain ⟨⟨d, hd, hunderlying⟩, hnone⟩ := hlocated
  have hlibrary := hl ▸ Run.sound_serveAll {} [.build Sample.rungs]
  have hstraight : ∀ s ∈ l.scopes, s.document.Straight := by simpa using hstraight
  have hshows := hlibrary.shows_within hs s.linkage.includes
  have horderly : ∀ name, l.Orderly ⟨s.within s.linkage.includes, .named name .typedef⟩ :=
    fun name => Library.orderly_of_straight hstraight (hstraight s (Library.mem_of_scope? hs))
      (IdlType.asksBare_named name .typedef)
  refine ⟨l, s, hl, hs, ⟨d, ?_, of_decide_eq_true hunderlying, ?_⟩, ?_⟩
  · exact toOption_eq_some.mp hd
  · have hfollows := locate_follows_typedefs hlibrary hshows (.named "A31" .typedef) (by decide)
      (horderly "A31") "Holder.item"
    rw [← of_decide_eq_true hunderlying]
    exact ((hfollows.1 d).mp (toOption_eq_some.mp hd)).2
  · have hfollows := locate_follows_typedefs hlibrary hshows (.named "A32" .typedef) (by decide)
      (horderly "A32") "Holder.item"
    cases hd : l.locate (s.within s.linkage.includes) (.named "A32" .typedef) "Holder.item" with
    | error e =>
        rw [hfollows.2.2.1 e hd]
        rfl
    | ok d =>
        rw [hd] at hnone
        cases hnone

end IdlScope

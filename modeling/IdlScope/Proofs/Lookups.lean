import IdlScope.Proofs.Agreement

/-!
# Look-ups — without a reference, a structure and its name are found together

Without a reference a name has one way through the files. Expansion goes along it and asks
what documents declare; a type goes along it and asks for the names that were entered when a
file was named. So the two agree if they agree in every file on the way, and there is no need
for the name to be the only one of its kind.

* **`Place.Shows`** — a place shows names: it is a file that was named, whether it has a scope
  by now or not, or a file of the library.
* **`Probe.first?_alike`** — questions that are answered in the same places end in the same
  place.
* **`unreferenced_alike`** — a structure is found exactly if its name is located, and then both
  are found in one home, under the name that its file gave to the structure.
-/

namespace IdlScope

/-! ## Questions with the same answers -/

/-- Two questions that every place of a path answers alike are answered alike by the path. -/
theorem Probe.first?_alike {α β : Type} (ask : Directory → String → Option α)
    (ask' : Directory → String → Option β) (R : Place → α → β → Prop) (path : List Probe)
    (hsome : ∀ probe ∈ path, ∀ a, ask probe.place.directory probe.key = some a →
      ∃ b, ask' probe.place.directory probe.key = some b ∧ R probe.place a b)
    (hnone : ∀ probe ∈ path, ask probe.place.directory probe.key = none →
      ask' probe.place.directory probe.key = none) :
    (∀ q a, first? ask path = some (q, a) → ∃ b, first? ask' path = some (q, b) ∧ R q a b) ∧
      (first? ask path = none → first? ask' path = none) := by
  induction path with
  | nil => exact ⟨fun _ _ h => (by cases h), fun _ => rfl⟩
  | cons probe path ih =>
      obtain ⟨ihsome, ihnone⟩ := ih (fun p hp => hsome p (List.mem_cons_of_mem _ hp))
        fun p hp => hnone p (List.mem_cons_of_mem _ hp)
      rw [first?, first?]
      cases hask : ask probe.place.directory probe.key with
      | some a =>
          obtain ⟨b, hb, hR⟩ := hsome probe List.mem_cons_self a hask
          rw [hb]
          refine ⟨fun q a' h => ?_, fun h => (by cases h)⟩
          obtain ⟨rfl, rfl⟩ := Prod.mk.inj (Option.some.inj h)
          exact ⟨b, rfl, hR⟩
      | none =>
          rw [hnone probe List.mem_cons_self hask]
          exact ⟨ihsome, ihnone⟩

/-! ## Places that show names -/

/-- The structures of a home, where `own` are those of the file that looks things up. -/
def Library.structuresAt (l : Library) (own : List (Structure NamedField)) :
    Home → List (Structure NamedField)
  | .here => own
  | .foreign file =>
    ((l.scope? file).map fun s => (s.structures.map Field.toNamedField).all).getD []

/-- The place is a file that was named, with `own` for its structures and any includes, or a
file of the library. -/
inductive Place.Shows (l : Library) (own : List (Structure NamedField)) : Place → Prop where
  | named {w : Site} {r : Roster} (hr : w.roster = .ok r) (hown : r.structures.all = own)
      (is : List (Option Include)) :
      Place.Shows l own ⟨.here, r.directory w.place.directory.document is⟩
  | finished {file : String} {q : Place} (hq : l.place? file = some q) : Place.Shows l own q

namespace Place.Shows

variable {o : Options} {P : Tree → Prop} {l : Library} (hl : l.Sound o P)
  {own : List (Structure NamedField)} {p q : Place} {name : String}

/-- Every place that is asked shows names if the first one does. -/
theorem searched (hp : p.Shows l own) (hq : q ∈ l.searched p) : q.Shows l own := by
  rcases List.mem_cons.mp hq with rfl | hq
  · exact hp
  · obtain ⟨r, hr, rfl⟩ := List.mem_map.mp hq
    exact .finished (Library.leads_of_mem_layers hr).1

include hl

/-- The names that a place shows are those of a roster. -/
theorem exists_roster (h : q.Shows l own) : ∃ (w : Site) (r : Roster), w.roster = .ok r ∧
    q.directory.document = w.place.directory.document ∧ q.directory.declared = r.declared ∧
      r.structures.all = l.structuresAt own q.home := by
  cases h with
  | named hr hown is => exact ⟨_, _, hr, rfl, rfl, hown⟩
  | @finished file q hq =>
      obtain ⟨s, hs, rfl⟩ := Option.map_eq_some_iff.mp hq
      obtain ⟨t, m, k, -, -, hbuilt⟩ := hl.built file s hs
      obtain ⟨r, resolved, hcomes⟩ := hbuilt.comes
      refine ⟨_, r, hcomes.named, hcomes.document, hcomes.declared, ?_⟩
      rw [Library.structuresAt, hs, Option.map_some, Option.getD_some, hcomes.map_structures]

/-- A structure that the place declares has its name entered there. -/
theorem declared?_eq_some (h : q.Shows l own) (hdistinct : q.directory.document.Distinct)
    {st : StructDecl} (hst : q.directory.struct? name = some st) :
    ∃ named ∈ l.structuresAt own q.home, named.madeUp = false ∧ named.decl = st ∧
      StructKind.ofSpelling? st.category = some named.kind ∧
      q.directory.declared? DeclKind.isType name = some ⟨named.name, .structLike named.kind⟩ := by
  obtain ⟨w, r, hr, hdocument, hdeclared, hstructures⟩ := h.exists_roster hl
  rw [Directory.struct?, hdocument] at hst
  rw [hdocument] at hdistinct
  obtain ⟨named, hnamed, hmade, hdecl, hkind, hentry⟩ := w.entered_of_struct? hr hdistinct hst
  refine ⟨named, hstructures ▸ hnamed, hmade, hdecl, hkind, ?_⟩
  rw [Directory.declared?, hdeclared, hentry]
  rfl

/-- Where no structure, enum or typedef is declared by a name, no type is entered for it. -/
theorem declared?_eq_none (h : q.Shows l own) (hother : q.directory.document.NoOtherType name)
    (hst : q.directory.struct? name = none) :
    q.directory.declared? DeclKind.isType name = none := by
  obtain ⟨w, r, hr, hdocument, hdeclared, -⟩ := h.exists_roster hl
  rw [Directory.struct?, hdocument] at hst
  rw [hdocument] at hother
  rw [Directory.declared?, hdeclared]
  exact w.declared?_eq_none hr hother hst

end Place.Shows

/-- A file of a sound library shows its names, whatever its includes are at the time. -/
theorem Library.Sound.shows_within {o : Options} {P : Tree → Prop} {l : Library}
    (hl : l.Sound o P) {file : String} {s : Scope} (hs : l.scope? file = some s)
    (is : List (Option Include)) :
    (s.within is).Shows l (s.structures.map Field.toNamedField).all := by
  obtain ⟨t, m, k, -, -, hbuilt⟩ := hl.built file s hs
  obtain ⟨r, resolved, hcomes⟩ := hbuilt.comes
  rw [hcomes.within_eq, hcomes.map_structures]
  exact .named hcomes.named rfl is

/-! ## Names without a reference -/

namespace Library

variable {l : Library} {p : Place}

theorem mem_searched_of_mem_pathOf {qualifier : Option String} {bare : String} {probe : Probe}
    (h : probe ∈ l.pathOf p qualifier bare) : probe.place ∈ l.searched p := by
  have hreach : ∀ {r}, r ∈ l.reach p → r.place ∈ l.searched p := fun hr =>
    List.mem_cons_of_mem _ (List.mem_map_of_mem hr)
  unfold pathOf at h
  split at h
  · rcases List.mem_cons.mp h with rfl | h
    · exact List.mem_cons_self
    · obtain ⟨r, hr, rfl⟩ := List.mem_map.mp h
      exact hreach hr
  · rcases List.mem_append.mp h with h | h
    · obtain ⟨r, hr, rfl⟩ := List.mem_map.mp h
      exact hreach (List.mem_filter.mp hr).1
    · split at h
      · rw [List.mem_singleton.mp h]
        exact List.mem_cons_self
      · exact absurd h List.not_mem_nil

theorem locate_of_declaration?_eq_none {t : IdlType} (owner : String)
    (h : l.declaration? p t.name t.reference DeclKind.isType = none) :
    l.locate p t owner = .error (.unresolvedType p.directory.filename owner t.name) := by
  rw [locate, h]
  rfl

end Library

/-- **Without a reference, a structure is found exactly if its name is located.** A file looks
up a type that has no reference, on a library that a build has come to: a file that was named,
whether it gets a scope or not, or one of the library. If no file that is asked declares a name
twice, structures of unknown kinds among them, or the bare name as an enum or a typedef, then
the look-up of the structure and that of the name fail together; if they do not, both end in
one home, and what the name is located as is what this home called the structure. -/
theorem unreferenced_alike {o : Options} {P : Tree → Prop} {l : Library} (hl : l.Sound o P)
    {own : List (Structure NamedField)} {p : Place} (hp : p.Shows l own) (type : IdlType)
    (htype : type.reference = none)
    (hnames : ∀ q ∈ l.searched p, q.directory.document.Distinct ∧
      q.directory.document.NoOtherType type.bareName) (owner : String) :
    (∀ q st, l.structureOf? p type = some (q, st) →
      ∃ named ∈ l.structuresAt own q.home, named.madeUp = false ∧ named.decl = st ∧
        ∃ kind, StructKind.ofSpelling? st.category = some kind ∧
          l.locate p type owner = .ok ⟨q.home, named.name, .structLike kind, kind.category⟩) ∧
    (l.structureOf? p type = none →
      l.locate p type owner =
        .error (.unresolvedType p.directory.filename owner type.name)) := by
  -- the two questions along the way of the name, place by place
  let R : Place → StructDecl → Declared → Prop := fun q st d =>
    ∃ named ∈ l.structuresAt own q.home, named.madeUp = false ∧ named.decl = st ∧
      StructKind.ofSpelling? st.category = some named.kind ∧
      d = ⟨named.name, .structLike named.kind⟩
  have hstructure : l.structureOf? p type =
      Probe.first? Directory.struct? (l.pathOf p type.splitName.1 type.bareName) := by
    rw [Library.structureOf?, Library.structurePath, htype]
    rfl
  have hdeclaration : l.declaration? p type.name type.reference DeclKind.isType =
      Probe.first? (Directory.declared? · DeclKind.isType ·)
        (l.pathOf p type.splitName.1 type.bareName) := by
    rw [Library.declaration?, htype]
    rfl
  have halike := Probe.first?_alike Directory.struct? (Directory.declared? · DeclKind.isType ·) R
    (l.pathOf p type.splitName.1 type.bareName) ?_ ?_
  · constructor
    · intro q st hst
      obtain ⟨d, hd, named, hnamed, hmade, hdecl, hkind, rfl⟩ :=
        halike.1 q st (hstructure ▸ hst)
      exact ⟨named, hnamed, hmade, hdecl, named.kind, hkind,
        Library.locate_of_structLike owner (hdeclaration.trans hd)⟩
    · intro hnone
      exact Library.locate_of_declaration?_eq_none owner
        (hdeclaration.trans (halike.2 (hstructure ▸ hnone)))
  · intro probe hprobe st hst
    have hsearched := Library.mem_searched_of_mem_pathOf hprobe
    obtain ⟨named, hnamed, hmade, hdecl, hkind, hentry⟩ :=
      (hp.searched hsearched).declared?_eq_some hl (hnames _ hsearched).1 hst
    exact ⟨_, hentry, named, hnamed, hmade, hdecl, hkind, rfl⟩
  · intro probe hprobe hst
    have hsearched := Library.mem_searched_of_mem_pathOf hprobe
    rw [Library.key_of_mem_pathOf hprobe] at hst ⊢
    exact (hp.searched hsearched).declared?_eq_none hl (hnames _ hsearched).2 hst

set_option maxRecDepth 100000 in
/-- A qualified item leads the file of the holder to the included file, both ways. -/
theorem unreferenced_alike_item : ∃ s, (Sample.library {}).scope? "user.thrift" = some s ∧
    ∃ q st, (Sample.library {}).structureOf? (s.within s.linkage.includes)
        (.named "base.Item" .struct) = some (q, st) ∧ q.home = .foreign "base.thrift" ∧
      ∃ named : Structure NamedField, named.decl = st ∧ ∃ kind,
        (Sample.library {}).locate (s.within s.linkage.includes) (.named "base.Item" .struct)
          "Holder.item" = .ok ⟨q.home, named.name, .structLike kind, kind.category⟩ := by
  have hfound : ((Sample.library {}).scope? "user.thrift").any (fun s =>
      ((Sample.library {}).searched (s.within s.linkage.includes)).all (fun q =>
        decide (q.directory.document.Distinct) &&
          decide (q.directory.document.NoOtherType "Item")) &&
      ((Sample.library {}).structureOf? (s.within s.linkage.includes)
        (.named "base.Item" .struct)).any
          fun found => decide (found.1.home = .foreign "base.thrift")) = true := by
    decide +kernel
  obtain ⟨s, hs, hfound⟩ := (Option.any_eq_true _ _).mp hfound
  simp only [Bool.and_eq_true, List.all_eq_true, Option.any_eq_true, decide_eq_true_eq] at hfound
  obtain ⟨hnames, ⟨q, st⟩, hst, hhome⟩ := hfound
  have hlibrary := Run.sound_serveAll {} [.build Sample.user]
  obtain ⟨hfound, -⟩ := unreferenced_alike hlibrary
    (hlibrary.shows_within hs s.linkage.includes) (.named "base.Item" .struct) rfl
    (fun q hq => hnames q hq) "Holder.item"
  obtain ⟨named, -, -, hdecl, kind, -, hlocate⟩ := hfound q st hst
  exact ⟨s, hs, q, st, hst, hhome, named, hdecl, kind, hlocate⟩

end IdlScope

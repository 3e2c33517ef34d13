import IdlScope.Proofs.Appending
import IdlScope.Proofs.Declarations

/-!
# Agreement — a structure as expansion finds it and as a type names it

Expansion looks for a structure in what documents declare, a type looks for it among the names
that were entered. With a reference both ask the include that the reference counts first. If
the structure is not there they part: expansion goes through all files that can be seen and
asks the own file last, whatever the qualifier of the name; a type goes the way of its name.

* **`Library.searched`** — the places that a look-up may ask; no two of them are one file.
* **`Scope.declared?_of_struct?`** — at each of them the two views of a name agree.
* **`referred_alike`** — the two look-ups lead to one structure where the reference leads to
  it, and where it is the only one of its name on the way of the name.
* **`referred_apart`** — elsewhere they may lead to two structures.
-/

namespace IdlScope

/-! ## Places that are asked -/

namespace Probe

variable {α : Type} {ask : Directory → String → Option α} {path : List Probe}

theorem exists_first? {probe : Probe} (hprobe : probe ∈ path)
    (h : (ask probe.place.directory probe.key).isSome) : ∃ q a, first? ask path = some (q, a) := by
  induction path with
  | nil => exact absurd hprobe List.not_mem_nil
  | cons head path ih =>
      rw [first?]
      cases hhead : ask head.place.directory head.key with
      | some a => exact ⟨head.place, a, rfl⟩
      | none =>
          rcases List.mem_cons.mp hprobe with rfl | hprobe
          · rw [hhead] at h
            cases h
          · exact ih hprobe

end Probe

namespace Library

variable {l : Library} {p q : Place}

/-- The places that a look-up may ask: the own one, and those of the files that can be seen. -/
def searched (l : Library) (p : Place) : List Place :=
  p :: (l.reach p).map Reached.place

section Searched

variable (hl : l.Closed) (hp : p.Covered l)
  (hown : ¬ l.Leads p.directory.present p.directory.filename)
include hl hp hown

theorem mem_searched_iff : q ∈ l.searched p ↔ l.Reaches p q := by
  rw [searched, List.mem_cons, List.mem_map, Reaches]
  refine or_congr_right ⟨?_, ?_⟩
  · rintro ⟨r, hr, rfl⟩
    exact ⟨r.link.file, leads_of_mem_layers hr⟩
  · rintro ⟨file, hq, hleads⟩
    obtain ⟨r, hr, -, hplace⟩ := (mem_reach_iff hl hp hown).mpr ⟨hleads, hq⟩
    exact ⟨r, hr, hplace⟩

/-- The places of two files that are asked differ in the names of their files. -/
theorem eq_of_mem_searched {q' : Place} (hq : q ∈ l.searched p) (hq' : q' ∈ l.searched p)
    (h : q.directory.filename = q'.directory.filename) : q = q' := by
  have hname : ∀ {file : String} {r : Place}, l.place? file = some r →
      r.directory.filename = file := by
    intro file r hr
    obtain ⟨s, hs, rfl⟩ := Option.map_eq_some_iff.mp hr
    exact filename_of_scope? hs
  rw [mem_searched_iff hl hp hown] at hq hq'
  rcases hq with rfl | ⟨file, hfile, hleads⟩
  · rcases hq' with rfl | ⟨file, hfile, hleads⟩
    · rfl
    · exact absurd hleads (h.trans (hname hfile) ▸ hown)
  · rcases hq' with rfl | ⟨file', hfile', -⟩
    · exact absurd hleads (h.symm.trans (hname hfile) ▸ hown)
    · obtain rfl : file = file' := (hname hfile).symm.trans (h.trans (hname hfile'))
      exact Option.some.inj (hfile.symm.trans hfile')

end Searched

/-! ## The paths of a reference -/

theorem key_of_mem_pathOf {qualifier : Option String} {bare : String} {probe : Probe}
    (h : probe ∈ l.pathOf p qualifier bare) : probe.key = bare := by
  unfold pathOf at h
  split at h
  · rcases List.mem_cons.mp h with rfl | h
    · rfl
    · obtain ⟨r, -, rfl⟩ := List.mem_map.mp h
      rfl
  · rcases List.mem_append.mp h with h | h
    · obtain ⟨r, -, rfl⟩ := List.mem_map.mp h
      rfl
    · split at h
      · rw [List.mem_singleton.mp h]
      · exact absurd h List.not_mem_nil

/-- A bare name asks every place. -/
theorem exists_mem_pathOf_none (h : q ∈ l.searched p) (bare : String) :
    ∃ probe ∈ l.pathOf p none bare, probe.place = q := by
  rcases List.mem_cons.mp h with rfl | h
  · exact ⟨_, List.mem_cons_self, rfl⟩
  · obtain ⟨r, hr, rfl⟩ := List.mem_map.mp h
    exact ⟨_, List.mem_cons_of_mem _ (List.mem_map_of_mem hr), rfl⟩

theorem declarationPath_some (p : Place) (name : String) (r : Reference) :
    l.declarationPath p name (some r) =
      ((l.referred? p r).map fun q =>
        (⟨q, referenceKey r (splitQualified name).2⟩ : Probe)).toList ++
          l.pathOf p (splitQualified name).1 (splitQualified name).2 := by
  rw [declarationPath, Option.map_eq_bind]
  rfl

theorem structurePath_some (p : Place) (t : IdlType) {r : Reference}
    (hr : t.reference = some r) :
    l.structurePath p t =
      ((l.referred? p r).map fun q =>
        [(⟨q, referenceKey r t.bareName⟩ : Probe), ⟨q, t.bareName⟩]).getD [] ++
          ((l.reach p).map (fun r => ⟨r.place, t.bareName⟩) ++ [⟨p, t.bareName⟩]) := by
  rw [structurePath, hr, ← List.append_assoc]
  dsimp only
  cases l.referred? p r <;> rfl

/-- The include that the reference counts declares what it asks for. -/
def Refers (l : Library) (p : Place) (t : IdlType) (r : Reference) : Prop :=
  ∃ q, l.referred? p r = some q ∧
    (q.directory.struct? (referenceKey r t.bareName)).isSome

/-- The place is the only one that declares the bare name, and the name asks there. -/
structure Alone (l : Library) (p : Place) (t : IdlType) (q : Place) : Prop where
  sole : ∀ q' ∈ l.searched p, (q'.directory.struct? t.bareName).isSome →
    q'.directory.filename = q.directory.filename
  asked : t.splitName.1 = none ∨
    ∃ probe ∈ l.pathOf p t.splitName.1 t.bareName, probe.place = q

/-- What expansion finds without the reference leading to it, it finds by the bare name. -/
theorem struct?_bareName_of_structureOf? {t : IdlType} {r : Reference} {st : StructDecl}
    (hr : t.reference = some r) (h : l.structureOf? p t = some (q, st))
    (hrefers : ¬ l.Refers p t r) : q.directory.struct? t.bareName = some st := by
  obtain ⟨probe, hprobe, rfl, hst⟩ := mem_of_first? h
  suffices hkey : probe.key = t.bareName from hkey ▸ hst
  rw [structurePath_some p t hr] at hprobe
  rcases List.mem_append.mp hprobe with hprobe | hprobe
  · cases hq₀ : l.referred? p r with
    | none =>
        rw [hq₀] at hprobe
        exact absurd hprobe List.not_mem_nil
    | some q₀ =>
        rw [hq₀] at hprobe
        rcases List.mem_cons.mp hprobe with rfl | hprobe
        · exact absurd ⟨q₀, hq₀, Option.isSome_of_eq_some hst⟩ hrefers
        · rw [List.mem_singleton.mp hprobe]
  · rcases List.mem_append.mp hprobe with hprobe | hprobe
    · obtain ⟨r', -, rfl⟩ := List.mem_map.mp hprobe
      rfl
    · rw [List.mem_singleton.mp hprobe]

/-- A structure that is found is located under its own name. -/
theorem locate_of_structLike {t : IdlType} {name : String} {kind : StructKind} (owner : String)
    (h : l.declaration? p t.name t.reference DeclKind.isType =
      some (q, ⟨name, .structLike kind⟩)) :
    l.locate p t owner = .ok ⟨q.home, name, .structLike kind, kind.category⟩ := by
  rw [locate, h]
  rfl

end Library

/-! ## The two views of a name -/

/-- At the place, a name is entered as the structure that the document declares by it, under
the name that the file gave to the structure; if there is no structure, there is no type. -/
structure Place.Agrees (q : Place) (u : Scope) (name : String) : Prop where
  entered : ∀ st, q.directory.struct? name = some st → ∃ named ∈ u.structures.all,
    named.madeUp = false ∧ named.decl = st ∧
      q.directory.declared? DeclKind.isType name = some ⟨named.name, .structLike named.kind⟩
  absent : q.directory.struct? name = none → q.directory.declared? DeclKind.isType name = none

theorem Scope.Comes.agrees {s : Scope} {o : Options} {d : Document} {l : Library} {k : Linkage}
    {r : Roster} {resolved : StructureLists ResolvedField} (h : s.Comes o d l k r resolved)
    {q : Place} (hdocument : q.directory.document = s.document)
    (hdeclared : q.directory.declared = s.declared) (hdistinct : q.directory.document.Distinct)
    {name : String} (honly : q.directory.document.OnlyStructures name) : q.Agrees s name := by
  have hstruct : q.directory.struct? name = s.directory.struct? name :=
    congrArg (fun d => d.structLikes.find? (·.name == name)) hdocument
  rw [hdocument] at hdistinct honly
  constructor
  · intro st hst
    obtain ⟨named, hnamed, hmade, hdecl, hentry⟩ :=
      h.declared_of_struct? hdistinct (hstruct ▸ hst)
    refine ⟨named, hnamed, hmade, hdecl, ?_⟩
    rw [Directory.declared?, hdeclared, hentry]
    rfl
  · intro hst
    rw [Directory.declared?, hdeclared, h.declared_eq_none honly (hstruct ▸ hst)]
    rfl

theorem Place.Agrees.isSome_struct? {q : Place} {u : Scope} {name : String} {d : Declared}
    (h : q.Agrees u name) (hd : q.directory.declared? DeclKind.isType name = some d) :
    (q.directory.struct? name).isSome := by
  by_contra hnone
  rw [h.absent (Option.not_isSome_iff_eq_none.mp hnone)] at hd
  cases hd

namespace Library

variable {l : Library} {p : Place} (hl : l.Closed) (hp : p.Covered l)
  (hown : ¬ l.Leads p.directory.present p.directory.filename) {t : IdlType} {r : Reference}
  (hr : t.reference = some r)
  (hagrees : ∀ q ∈ l.searched p, ∃ u, l.scope? q.directory.filename = some u ∧
    q.Agrees u t.bareName ∧ q.Agrees u (referenceKey r t.bareName)) {q : Place} {st : StructDecl}
include hl hp hown hr hagrees

/-- Where the include that a reference counts declares what it asks for, both look-ups end. -/
theorem declaration?_of_refers (hfound : l.structureOf? p t = some (q, st))
    (h : l.Refers p t r) : ∃ key, q.directory.struct? key = some st ∧
      (∃ u, l.scope? q.directory.filename = some u ∧ q.Agrees u key) ∧
      ∀ d, q.directory.declared? DeclKind.isType key = some d →
        l.declaration? p t.name t.reference DeclKind.isType = some (q, d) := by
  obtain ⟨q₀, hq₀, hstruct⟩ := h
  obtain ⟨st₀, hst₀⟩ := Option.isSome_iff_exists.mp hstruct
  rw [structureOf?, structurePath_some p t hr, hq₀, Option.map_some, Option.getD_some,
    List.cons_append, Probe.first?, hst₀] at hfound
  obtain ⟨rfl, rfl⟩ := Prod.mk.inj (Option.some.inj hfound)
  obtain ⟨u, hu, -, hkey⟩ := hagrees q₀
    ((mem_searched_iff hl hp hown).mpr (reaches_of_referred? hq₀))
  refine ⟨_, hst₀, ⟨u, hu, hkey⟩, fun d hd => ?_⟩
  rw [declaration?, hr, declarationPath_some, hq₀, Option.map_some, Option.toList_some,
    List.singleton_append, Probe.first?]
  dsimp only
  rw [show (splitQualified t.name).2 = t.bareName from rfl, hd]

/-- Where the include does not, but a single file declares the name and the name asks there,
both look-ups end in this file. -/
theorem declaration?_of_alone (hfound : l.structureOf? p t = some (q, st))
    (hrefers : ¬ l.Refers p t r) (h : l.Alone p t q) :
    ∃ key, q.directory.struct? key = some st ∧
      (∃ u, l.scope? q.directory.filename = some u ∧ q.Agrees u key) ∧
      ∀ d, q.directory.declared? DeclKind.isType key = some d →
        l.declaration? p t.name t.reference DeclKind.isType = some (q, d) := by
  have hsearched : ∀ {q}, l.Reaches p q → q ∈ l.searched p :=
    fun h => (mem_searched_iff hl hp hown).mpr h
  have hq : q ∈ l.searched p := hsearched (reaches_of_structureOf? hfound)
  have hst := struct?_bareName_of_structureOf? hr hfound hrefers
  obtain ⟨u, hu, hbare, -⟩ := hagrees q hq
  refine ⟨t.bareName, hst, ⟨u, hu, hbare⟩, fun d hd => ?_⟩
  have hpath : ∃ probe ∈ l.pathOf p t.splitName.1 t.bareName, probe.place = q := by
    rcases h.asked with hnone | hasked
    · rw [hnone]
      exact exists_mem_pathOf_none hq t.bareName
    · exact hasked
  obtain ⟨probe, hprobe, rfl⟩ := hpath
  have hdeclared := declarationPath_some (l := l) p t.name r
  have hasked : probe ∈ l.declarationPath p t.name (some r) := by
    rw [hdeclared]
    exact List.mem_append_right _ hprobe
  have hanswer : (probe.place.directory.declared? DeclKind.isType probe.key).isSome := by
    rw [key_of_mem_pathOf hprobe, hd]
    rfl
  obtain ⟨q', d', hfirst⟩ : ∃ q' d', Probe.first? (Directory.declared? · DeclKind.isType ·)
      (l.declarationPath p t.name (some r)) = some (q', d') := Probe.exists_first? hasked hanswer
  -- any first answer comes from the same file, so it is the same answer
  obtain ⟨probe', hprobe', rfl, hd'⟩ := mem_of_first? hfirst
  rw [declaration?, hr, hfirst]
  rw [hdeclared] at hprobe'
  rcases List.mem_append.mp hprobe' with hprobe' | hprobe'
  · obtain ⟨q₀, hq₀, rfl⟩ := Option.map_eq_some_iff.mp (Option.mem_toList.mp hprobe')
    obtain ⟨u₀, -, -, hkey⟩ := hagrees q₀ (hsearched (reaches_of_referred? hq₀))
    exact absurd ⟨q₀, hq₀, hkey.isSome_struct? hd'⟩ hrefers
  · have hq' := hsearched (reaches_of_mem_pathOf hprobe')
    rw [key_of_mem_pathOf hprobe'] at hd'
    obtain ⟨u', -, hbare', -⟩ := hagrees _ hq'
    have hsame := eq_of_mem_searched hl hp hown hq' hq
      (h.sole _ hq' (hbare'.isSome_struct? hd'))
    rw [hsame] at hd' ⊢
    rw [← Option.some.inj (hd'.symm.trans hd)]

end Library

/-! ## Files of a run -/

/-- Every place that a file of a sound library asks is a file of the library, and shows its
names. -/
theorem Library.Sound.comes_of_searched {o : Options} {P : Tree → Prop} {l : Library}
    (h : l.Sound o P) {file : String} {s : Scope} (hs : l.scope? file = some s)
    {is : List (Option Include)} {q : Place} (hq : q ∈ l.searched (s.within is)) :
    ∃ u, l.scope? q.directory.filename = some u ∧ q.directory.document = u.document ∧
      q.directory.declared = u.declared ∧
      ∃ d m k r resolved, u.Comes o d m k r resolved := by
  have hfile : ∃ file u, l.scope? file = some u ∧ q.directory.document = u.document ∧
      q.directory.declared = u.declared := by
    rcases List.mem_cons.mp hq with rfl | hq
    · exact ⟨file, s, hs, rfl, rfl⟩
    · obtain ⟨r, hr, rfl⟩ := List.mem_map.mp hq
      obtain ⟨u, hu, hplace⟩ := Option.map_eq_some_iff.mp (leads_of_mem_layers hr).1
      rw [← hplace]
      exact ⟨r.link.file, u, hu, rfl, rfl⟩
  obtain ⟨file, u, hu, hdocument, hdeclared⟩ := hfile
  have hname : q.directory.filename = file :=
    (congrArg Document.filename hdocument).trans (filename_of_scope? hu)
  obtain ⟨t, m, k, -, -, hbuilt⟩ := h.built file u hu
  exact ⟨u, hname ▸ hu, hdocument, hdeclared, _, _, _, hbuilt.comes⟩

/-- **With a reference, expansion and types agree where it leads to a structure, and where one
file declares the name.** In every file that a run comes to, at every time from the naming of
the file on: if no file that can be seen declares a name twice or either name as something
else, and the structure of a type was found by its reference, or is the only one of its name
and stands on the way of the name, then the type is located, at the same home, under the name
that its file gave to this structure. -/
theorem referred_alike (o : Options) (requests : List Request) {file : String} {s : Scope}
    (hs : ((Run.new o).serveAll requests).library.scope? file = some s) :
    ∃ t : Tree, t.Among (requests.flatMap Request.trees) ∧ s.document = t.document ∧
      let l := ((Run.new o).serveAll requests).library
      ∀ is, s.Meanwhile t.includes.length is → ∀ type r, type.reference = some r →
        (∀ q ∈ l.searched (s.within is), q.directory.document.Distinct ∧
          q.directory.document.OnlyStructures type.bareName ∧
          q.directory.document.OnlyStructures (Library.referenceKey r type.bareName)) →
        ∀ q st, l.structureOf? (s.within is) type = some (q, st) →
          (l.Refers (s.within is) type r ∨ l.Alone (s.within is) type q) →
          ∃ u, l.scope? q.directory.filename = some u ∧
            ∃ named ∈ u.structures.all, named.madeUp = false ∧ named.decl = st ∧
              ∀ owner, l.locate (s.within is) type owner =
                .ok ⟨q.home, named.name, .structLike named.kind, named.kind.category⟩ := by
  have hlibrary := Run.sound_serveAll o requests
  obtain ⟨t, m, k, ht, hle, hbuilt⟩ := hlibrary.built file s hs
  refine ⟨t, ht, Document.document_of_scope hbuilt.scope, ?_⟩
  intro l is hmeanwhile type r hr hnames q st hfound hcase
  obtain ⟨hcovered, hown⟩ := hbuilt.meanwhile_place hle hlibrary.closed hmeanwhile
  have hagrees : ∀ q ∈ l.searched (s.within is), ∃ u,
      l.scope? q.directory.filename = some u ∧ q.Agrees u type.bareName ∧
        q.Agrees u (Library.referenceKey r type.bareName) := by
    intro q hq
    obtain ⟨hdistinct, hbare, hkey⟩ := hnames q hq
    obtain ⟨u, hu, hdocument, hdeclared, _, _, _, _, _, hcomes⟩ :=
      hlibrary.comes_of_searched hs hq
    exact ⟨u, hu, hcomes.agrees hdocument hdeclared hdistinct hbare,
      hcomes.agrees hdocument hdeclared hdistinct hkey⟩
  -- either the reference leads both look-ups, or the name does
  have hends : ∃ key, q.directory.struct? key = some st ∧
      (∃ u, l.scope? q.directory.filename = some u ∧ q.Agrees u key) ∧
      ∀ d, q.directory.declared? DeclKind.isType key = some d →
        l.declaration? (s.within is) type.name type.reference DeclKind.isType = some (q, d) := by
    by_cases hrefers : l.Refers (s.within is) type r
    · exact Library.declaration?_of_refers hlibrary.closed hcovered hown hr hagrees hfound hrefers
    · exact Library.declaration?_of_alone hlibrary.closed hcovered hown hr hagrees hfound hrefers
        (hcase.resolve_left hrefers)
  obtain ⟨key, hst, ⟨u, hu, hkey⟩, hlocated⟩ := hends
  obtain ⟨named, hnamed, hmade, hdecl, hentry⟩ := hkey.entered st hst
  exact ⟨u, hu, named, hnamed, hmade, hdecl,
    fun owner => Library.locate_of_structLike owner (hlocated _ hentry)⟩

namespace Sample

/-- An item by a reference that counts an include. -/
def itemBy (index : Int) : IdlType :=
  { IdlType.named "Item" .struct with reference := some ⟨index, "Item"⟩ }

/-- An order whose item refers to the first include, which declares no item; the file itself
and its second include do. -/
def order : Tree where
  document := { Document.empty "user.thrift" with
    structs := [⟨"struct", "Item", [], [], none⟩,
      ⟨"struct", "Order", [⟨1, "item", .default, itemBy 0, none, []⟩], [], none⟩] }
  includes := [⟨"base.thrift", true, ⟨.empty "base.thrift", []⟩⟩,
    ⟨"other.thrift", true, ⟨{ Document.empty "other.thrift" with
      structs := [⟨"struct", "Item", [], [], none⟩] }, []⟩⟩]

/-- The library of a run that has built the order. -/
def ordered : Library := ((Run.new {}).serveAll [.build order]).library

end Sample

set_option maxRecDepth 100000 in
/-- A reference to the second include leads to its item, although the file itself has one. -/
theorem referred_alike_item : ∃ s, Sample.ordered.scope? "user.thrift" = some s ∧
    ∃ q st, Sample.ordered.structureOf? (s.within s.linkage.includes) (Sample.itemBy 1) =
        some (q, st) ∧ q.home = .foreign "other.thrift" ∧
      ∃ named : Structure Field, named.decl = st ∧
        Sample.ordered.locate (s.within s.linkage.includes) (Sample.itemBy 1) "Order.item" =
          .ok ⟨q.home, named.name, .structLike named.kind, named.kind.category⟩ := by
  have hfound : (Sample.ordered.scope? "user.thrift").any (fun s =>
      (Sample.ordered.searched (s.within s.linkage.includes)).all (fun q =>
        decide (q.directory.document.Distinct) &&
          decide (q.directory.document.OnlyStructures "Item")) &&
      (Sample.ordered.referred? (s.within s.linkage.includes) ⟨1, "Item"⟩).any (fun q =>
        (q.directory.struct? "Item").isSome) &&
      (Sample.ordered.structureOf? (s.within s.linkage.includes) (Sample.itemBy 1)).any
        fun found => decide (found.1.home = .foreign "other.thrift")) = true := by
    decide +kernel
  obtain ⟨s, hs, hfound⟩ := (Option.any_eq_true _ _).mp hfound
  simp only [Bool.and_eq_true, List.all_eq_true, Option.any_eq_true, decide_eq_true_eq] at hfound
  obtain ⟨⟨hnames, q₀, hq₀, hstruct⟩, ⟨q, st⟩, hst, hhome⟩ := hfound
  obtain ⟨t, -, -, halike⟩ := referred_alike {} [.build Sample.order] hs
  obtain ⟨u, -, named, -, -, hdecl, hlocate⟩ := halike s.linkage.includes
    ⟨List.take_prefix _ _, List.prefix_refl _⟩ (Sample.itemBy 1) ⟨1, "Item"⟩ rfl
    (fun q hq => ⟨(hnames q hq).1, (hnames q hq).2, (hnames q hq).2⟩) q st hst
    (.inl ⟨q₀, hq₀, hstruct⟩)
  exact ⟨s, hs, q, st, hst, hhome, named, hdecl, hlocate _⟩

set_option maxRecDepth 100000 in
/-- The first include does not declare the item that the reference asks it for. Expansion goes on
to the other include, although no name is declared twice in one file; the type is the item of
the file itself. -/
theorem referred_apart : ∃ s, Sample.ordered.scope? "user.thrift" = some s ∧
    (∀ q ∈ Sample.ordered.searched (s.within s.linkage.includes),
      q.directory.document.Distinct ∧ q.directory.document.OnlyStructures "Item") ∧
    ∃ q st d, Sample.ordered.structureOf? (s.within s.linkage.includes) (Sample.itemBy 0) =
        some (q, st) ∧ q.home = .foreign "other.thrift" ∧
      Sample.ordered.locate (s.within s.linkage.includes) (Sample.itemBy 0) "Order.item" = .ok d ∧
        d.home = .here := by
  have hfound : (Sample.ordered.scope? "user.thrift").any (fun s =>
      (Sample.ordered.searched (s.within s.linkage.includes)).all (fun q =>
        decide (q.directory.document.Distinct) &&
          decide (q.directory.document.OnlyStructures "Item")) &&
      (Sample.ordered.structureOf? (s.within s.linkage.includes) (Sample.itemBy 0)).any
        (fun found => decide (found.1.home = .foreign "other.thrift")) &&
      (Sample.ordered.locate (s.within s.linkage.includes) (Sample.itemBy 0)
        "Order.item").toOption.any fun d => decide (d.home = .here)) = true := by
    decide +kernel
  obtain ⟨s, hs, hfound⟩ := (Option.any_eq_true _ _).mp hfound
  simp only [Bool.and_eq_true, List.all_eq_true, Option.any_eq_true, decide_eq_true_eq,
    toOption_eq_some] at hfound
  obtain ⟨⟨hnames, ⟨q, st⟩, hst, hhome⟩, d, hd, hhere⟩ := hfound
  exact ⟨s, hs, hnames, q, st, d, hst, hhome, hd, hhere⟩

end IdlScope

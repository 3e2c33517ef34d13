import IdlScope.Proofs.Stages
import IdlScope.Proofs.Texts

/-!
# Appending — what an appended include does to the meaning of names

While a file is written, includes are appended to the list that its own look-ups walk. An
appended include is of a file that was seen already, so the files that can be seen stay the
same. Their order does not: an appended include stands among the direct ones, before files
that were nearer than its own was.

* **`Library.listed_iff`** — the search lists exactly the files that includes lead to.
* **`Library.Near`**, **`Library.Sole`** — the names that keep their meaning in any order: those
  that the file or a file it includes directly declares, and those that one file declares.
* **`meaning_kept`** — in every file of a run these names mean the same at every time, and a
  bare name means something at one time if and only if it does at every other.
* **`meaning_moves`** — another name may change its meaning from a field to a typedef.
-/

namespace IdlScope

namespace Library

variable {l : Library}

/-! ## The search is complete -/

theorem exists_mem_unseen {seen : List String} {layer : List Include} {i : Include}
    (hi : i ∈ layer) (hnew : i.file ∉ seen) : ∃ j ∈ unseen seen layer, j.file = i.file := by
  induction layer generalizing seen with
  | nil => exact absurd hi List.not_mem_nil
  | cons j js ih =>
      rw [unseen]
      rcases List.mem_cons.mp hi with rfl | hi
      · rw [if_neg (by simpa using hnew)]
        exact ⟨i, List.mem_cons_self, rfl⟩
      · split
        · exact ih hi hnew
        · by_cases hfile : i.file = j.file
          · exact ⟨j, List.mem_cons_self, hfile.symm⟩
          · have hnew' : i.file ∉ j.file :: seen := by simp [hfile, hnew]
            obtain ⟨j', hj', hfile'⟩ := ih hi hnew'
            exact ⟨j', List.mem_cons_of_mem _ hj', hfile'⟩

/-- The file was seen before or is listed. -/
def Covers (seen : List String) (listed : List Reached) (file : String) : Prop :=
  file ∈ seen ∨ ∃ r ∈ listed, r.link.file = file

/-- An include of a known file leads to the place of the file. -/
theorem Knows.follow? {i : Include} (h : l.Knows i.file) :
    ∃ q, l.place? i.file = some q ∧ l.follow? i = some ⟨i, q⟩ := by
  obtain ⟨s, hs⟩ := h
  have hplace : l.place? i.file = some ⟨.foreign i.file, s.directory⟩ := by
    rw [place?, hs]
    rfl
  exact ⟨_, hplace, by rw [Library.follow?, hplace, Option.map_some]⟩

/-- Known includes that are new are listed in the layer that they open. -/
theorem exists_reached {links : List Include} {j : Include} (hj : j ∈ links)
    (hknown : l.Knows j.file) : ∃ r ∈ links.filterMap l.follow?, r.link.file = j.file := by
  obtain ⟨q, -, hr⟩ := hknown.follow?
  exact ⟨_, List.mem_filterMap.mpr ⟨j, hj, hr⟩, rfl⟩

/-- What holds where no include is new, and of a layer if it holds behind it, holds of all layers,
if the bound counts the files ahead. -/
theorem layers_induction (hl : l.Closed)
    {motive : List String → List Include → List Reached → Prop}
    (done : ∀ seen layer, (∀ i ∈ layer, l.Knows i.file) → unseen seen layer = [] →
      motive seen layer [])
    (next : ∀ seen layer behind, (∀ i ∈ layer, l.Knows i.file) →
      motive ((unseen seen layer).map Include.file ++ seen)
        (((unseen seen layer).filterMap l.follow?).flatMap (·.place.directory.present)) behind →
      motive seen layer ((unseen seen layer).filterMap l.follow? ++ behind))
    (n : Nat) (seen : List String) (layer : List Include) (hlayer : ∀ i ∈ layer, l.Knows i.file)
    (hn : (l.ahead seen).card ≤ n) : motive seen layer (layers l n seen layer) := by
  induction n generalizing seen layer with
  | zero => exact done seen layer hlayer (unseen_eq_nil hlayer (Nat.le_zero.mp hn))
  | succ n ih =>
      cases hlinks : unseen seen layer with
      | nil =>
          rw [layers_of_unseen_nil hlinks]
          exact done seen layer hlayer hlinks
      | cons first others =>
          have hfirst : first ∈ unseen seen layer := hlinks ▸ List.mem_cons_self
          have hless := card_ahead_lt hfirst (hlayer first (mem_unseen hfirst).1)
          exact next seen layer _ hlayer (ih _ _ (fun _ hj => hl.knows_next hj) (by omega))

/-- Layers cover the includes they start from, and the includes of all that they list, if the
bound counts the files ahead. -/
theorem covers_layers (hl : l.Closed) (n : Nat) (seen : List String) (layer : List Include)
    (hlayer : ∀ i ∈ layer, l.Knows i.file) (hn : (l.ahead seen).card ≤ n) :
    (∀ i ∈ layer, Covers seen (layers l n seen layer) i.file) ∧
      ∀ r ∈ layers l n seen layer, ∀ i ∈ r.place.directory.present,
        Covers seen (layers l n seen layer) i.file := by
  refine layers_induction hl (motive := fun seen layer listed =>
    (∀ i ∈ layer, Covers seen listed i.file) ∧
      ∀ r ∈ listed, ∀ i ∈ r.place.directory.present, Covers seen listed i.file)
    (fun seen layer _ hnone => ?_) (fun seen layer behind hlayer ih => ?_) n seen layer hlayer hn
  · -- without new includes everything was seen before
    refine ⟨fun i hi => .inl ?_, fun r hr => absurd hr List.not_mem_nil⟩
    by_contra hnew
    obtain ⟨j, hj, -⟩ := exists_mem_unseen hi hnew
    rw [hnone] at hj
    exact absurd hj List.not_mem_nil
  · obtain ⟨hstart, hbehind⟩ := ih
    -- what the layers behind cover, all layers cover: the new includes are listed first
    have hall : ∀ {file : String},
        Covers ((unseen seen layer).map Include.file ++ seen) behind file →
          Covers seen ((unseen seen layer).filterMap l.follow? ++ behind) file := by
      rintro file (hfile | ⟨r, hr, hfile⟩)
      · rcases List.mem_append.mp hfile with hfile | hfile
        · obtain ⟨j, hj, rfl⟩ := List.mem_map.mp hfile
          obtain ⟨r, hr, hfile⟩ := exists_reached hj (hlayer j (mem_unseen hj).1)
          exact .inr ⟨r, List.mem_append_left _ hr, hfile⟩
        · exact .inl hfile
      · exact .inr ⟨r, List.mem_append_right _ hr, hfile⟩
    refine ⟨fun i hi => ?_, fun r hr i hi => ?_⟩
    · by_cases hnew : i.file ∈ seen
      · exact .inl hnew
      · obtain ⟨j, hj, hfile⟩ := exists_mem_unseen hi hnew
        exact hall (.inl (List.mem_append_left _ (hfile ▸ List.mem_map_of_mem hj)))
    · rcases List.mem_append.mp hr with hr | hr
      · exact hall (hstart i (List.mem_flatMap.mpr ⟨r, hr, hi⟩))
      · exact hall (hbehind r hr i hi)

/-- A place that does not lead to itself lists exactly the files that its includes lead to. -/
theorem listed_iff (hl : l.Closed) {p : Place} (hp : p.Covered l)
    (hown : ¬ l.Leads p.directory.present p.directory.filename) {file : String} :
    (∃ r ∈ l.reach p, r.link.file = file) ↔ l.Leads p.directory.present file := by
  constructor
  · rintro ⟨r, hr, rfl⟩
    exact (leads_of_mem_layers hr).2
  · obtain ⟨hstart, hbehind⟩ := covers_layers hl l.scopes.length [p.directory.filename]
      p.directory.present hp.includes (card_ahead_le le_rfl _)
    rw [← reach] at hstart hbehind
    -- induction on the way to the file; no file on it is the own one
    suffices hway : ∀ is, l.Leads is file → ¬ l.Leads is p.directory.filename →
        (∀ i ∈ is, Covers [p.directory.filename] (l.reach p) i.file) →
          ∃ r ∈ l.reach p, r.link.file = file from fun h => hway _ h hown hstart
    intro is h
    induction h with
    | direct hi =>
        intro hown hcovers
        rcases hcovers _ hi with hfile | hlisted
        · exact absurd (List.mem_singleton.mp hfile ▸ Leads.direct hi) hown
        · exact hlisted
    | @through is i q file hi hq _ ih =>
        intro hown hcovers
        rcases hcovers i hi with hfile | ⟨r, hr, hfile⟩
        · exact absurd (List.mem_singleton.mp hfile ▸ Leads.direct hi) hown
        · have hplace : r.place = q := by
            have hr := (leads_of_mem_layers hr).1
            rw [hfile, hq] at hr
            exact (Option.some.inj hr).symm
          exact ih (fun h => hown (.through hi hq h)) fun j hj => hbehind r hr j (hplace ▸ hj)

/-- The places that the search lists are the ones of the files that includes lead to. -/
theorem mem_reach_iff (hl : l.Closed) {p : Place} (hp : p.Covered l)
    (hown : ¬ l.Leads p.directory.present p.directory.filename) {file : String} {q : Place} :
    (∃ r ∈ l.reach p, r.link.file = file ∧ r.place = q) ↔
      l.Leads p.directory.present file ∧ l.place? file = some q := by
  constructor
  · rintro ⟨r, hr, rfl, rfl⟩
    exact (leads_of_mem_layers hr).symm
  · rintro ⟨hleads, hq⟩
    obtain ⟨r, hr, hfile⟩ := (listed_iff hl hp hown).mpr hleads
    have hplace := (leads_of_mem_layers hr).1
    rw [hfile, hq] at hplace
    exact ⟨r, hr, hfile, (Option.some.inj hplace).symm⟩

end Library

/-! ## The meaning of a name -/

/-- What a probe finds of the wanted kinds: a declaration, with the home of its file. -/
def Probe.answer? (accept : DeclKind → Bool) (probe : Probe) : Option (Home × Declared) :=
  (probe.place.directory.declared? accept probe.key).map (probe.place.home, ·)

theorem Probe.isSome_answer? (accept : DeclKind → Bool) (probe : Probe) :
    (probe.answer? accept).isSome = (probe.place.directory.declared? accept probe.key).isSome := by
  rw [answer?, Option.isSome_map]

theorem Probe.map_first? (accept : DeclKind → Bool) (path : List Probe) :
    (first? (Directory.declared? · accept ·) path).map (fun found => (found.1.home, found.2)) =
      path.findSome? (answer? accept) := by
  induction path with
  | nil => rfl
  | cons probe path ih =>
      rw [first?, List.findSome?_cons, answer?, ← ih]
      cases probe.place.directory.declared? accept probe.key <;> rfl

namespace Library

variable {l : Library}

/-- What a name means to a place: a declaration, with the home of its file. -/
def meaning? (l : Library) (p : Place) (name : String) (reference : Option Reference)
    (accept : DeclKind → Bool) : Option (Home × Declared) :=
  (l.declaration? p name reference accept).map fun found => (found.1.home, found.2)

/-- A bare name is looked up in the file itself, then in the files that can be seen. -/
theorem findSome?_pathOf_none (p : Place) (bare : String) (accept : DeclKind → Bool) :
    (l.pathOf p none bare).findSome? (Probe.answer? accept) =
      (Probe.answer? accept ⟨p, bare⟩).or
        ((l.reach p).findSome? fun r => Probe.answer? accept ⟨r.place, bare⟩) := by
  rw [pathOf, List.findSome?_cons, List.findSome?_map]
  cases Probe.answer? accept ⟨p, bare⟩ <;> rfl

/-- The files that a place includes directly, in order, each once. -/
def neighbours (l : Library) (p : Place) : List Reached :=
  (unseen [p.directory.filename] p.directory.present).filterMap l.follow?

/-- Direct includes are listed first. -/
theorem neighbours_prefix_reach (l : Library) (p : Place) : l.neighbours p <+: l.reach p := by
  rw [reach]
  cases hn : l.scopes.length with
  | zero =>
      have hnone : ∀ i, l.follow? i = none := by
        intro i
        rw [follow?, place?, scope?, List.length_eq_zero_iff.mp hn]
        rfl
      simp [neighbours, layers, hnone]
  | succ n => exact List.prefix_append _ _

theorem unseen_prefix_append (seen : List String) (is js : List Include) :
    unseen seen is <+: unseen seen (is ++ js) := by
  induction is generalizing seen with
  | nil => exact List.nil_prefix
  | cons i is ih =>
      rw [List.cons_append, unseen, unseen]
      split
      · exact ih seen
      · exact List.cons_prefix_cons.mpr ⟨rfl, ih (i.file :: seen)⟩

/-- Lists that begin alike are searched alike if the common part has what is searched for. -/
theorem findSome?_eq_of_prefix {α β : Type} {f : α → Option β} {front xs ys : List α}
    (hxs : front <+: xs) (hys : front <+: ys) (hfront : ∃ a ∈ front, (f a).isSome) :
    xs.findSome? f = ys.findSome? f := by
  obtain ⟨b, hb⟩ := Option.isSome_iff_exists.mp (List.findSome?_isSome_iff.mpr hfront)
  obtain ⟨more, rfl⟩ := hxs
  obtain ⟨others, rfl⟩ := hys
  rw [List.findSome?_append, List.findSome?_append, hb, Option.some_or, Option.some_or]

/-- The name is declared, as one of the wanted kinds, in a file that the place includes
directly, or in the file itself if the name has no qualifier. -/
def Near (l : Library) (p : Place) (name : String) (accept : DeclKind → Bool) : Prop :=
  match splitQualified name with
  | (none, bare) => (p.directory.declared? accept bare).isSome ∨
      ∃ r ∈ l.neighbours p, (r.place.directory.declared? accept bare).isSome
  | (some q, bare) => ∃ r ∈ l.neighbours p, r.link.answersTo q = true ∧
      (r.place.directory.declared? accept bare).isSome

/-- No two files that the place can see declare the name as one of the wanted kinds. -/
def Sole (l : Library) (p : Place) (name : String) (accept : DeclKind → Bool) : Prop :=
  ∀ r ∈ l.reach p, ∀ r' ∈ l.reach p, (r.place.directory.declared? accept name).isSome →
    (r'.place.directory.declared? accept name).isSome → r.link.file = r'.link.file

end Library

/-! ## Appended includes -/

/-- The place `p'` is the place `p` after includes were appended, all of them of files that
the includes of `p` lead to. -/
structure Place.Extends (l : Library) (p p' : Place) : Prop where
  home : p'.home = p.home
  document : p'.directory.document = p.directory.document
  declared : p'.directory.declared = p.directory.declared
  includes : p.directory.includes <+: p'.directory.includes
  leads : ∀ i ∈ p'.directory.present, l.Leads p.directory.present i.file

namespace Place.Extends

variable {l : Library} {p p' : Place} (h : p.Extends l p')
include h

theorem filename : p'.directory.filename = p.directory.filename :=
  congrArg Document.filename h.document

theorem present : ∃ more, p'.directory.present = p.directory.present ++ more := by
  obtain ⟨more, hmore⟩ := h.includes
  refine ⟨more.filterMap id, ?_⟩
  rw [Directory.present, ← hmore, List.filterMap_append]
  rfl

theorem leads_iff {file : String} :
    l.Leads p'.directory.present file ↔ l.Leads p.directory.present file := by
  obtain ⟨more, hmore⟩ := h.present
  refine ⟨Library.Leads.trans h.leads, Library.Leads.mono fun i hi => ?_⟩
  rw [hmore]
  exact List.mem_append_left _ hi

theorem neighbours_prefix : l.neighbours p <+: l.neighbours p' := by
  obtain ⟨more, hmore⟩ := h.present
  rw [Library.neighbours, Library.neighbours, h.filename, hmore]
  exact (Library.unseen_prefix_append _ _ _).filterMap _

theorem answer? (accept : DeclKind → Bool) (key : String) :
    Probe.answer? accept ⟨p', key⟩ = Probe.answer? accept ⟨p, key⟩ := by
  rw [Probe.answer?, Probe.answer?, Directory.declared?, Directory.declared?, h.declared, h.home]

/-- A reference that counts an include of `p` counts the same include of `p'`. -/
theorem referred?_eq {r : Reference} (hr : r.index < p.directory.includes.length) :
    l.referred? p' r = l.referred? p r := by
  rw [Library.referred?, Library.referred?, Directory.includeAt?, Directory.includeAt?]
  split
  · rfl
  · next hnonneg =>
    obtain ⟨more, hmore⟩ := h.includes
    rw [← hmore, List.getElem?_append_left (by omega)]

/-- What a reference finds in the include that it counts, it finds for both places. What it
does not find there is looked up along the path of the name. -/
theorem exists_referred (name : String) {reference : Option Reference}
    (hreference : ∀ r ∈ reference, r.index < p.directory.includes.length)
    (accept : DeclKind → Bool) : ∃ referred : Option (Home × Declared),
      ∀ place, place = p ∨ place = p' → l.meaning? place name reference accept =
        referred.or ((l.pathOf place (splitQualified name).1 (splitQualified name).2).findSome?
          (Probe.answer? accept)) := by
  have hpath : ∀ place, l.meaning? place name reference accept =
      (l.declarationPath place name reference).findSome? (Probe.answer? accept) := fun _ =>
    Probe.map_first? accept _
  simp only [hpath, Library.declarationPath, List.findSome?_append]
  cases reference with
  | none => exact ⟨none, fun _ _ => rfl⟩
  | some r =>
      refine ⟨((l.referred? p r).bind fun q => some
        ⟨q, Library.referenceKey r (splitQualified name).2⟩).toList.findSome?
          (Probe.answer? accept), ?_⟩
      rintro _ (rfl | rfl)
      · rfl
      · simp only [Option.bind_eq_bind, Option.bind_some, h.referred?_eq (hreference r rfl)]
        rfl

/-- A near name keeps its meaning. -/
theorem meaning?_eq_of_near {name : String} {reference : Option Reference}
    {accept : DeclKind → Bool}
    (hreference : ∀ r ∈ reference, r.index < p.directory.includes.length)
    (hnear : l.Near p name accept) :
    l.meaning? p' name reference accept = l.meaning? p name reference accept := by
  have hbefore := l.neighbours_prefix_reach p
  have hafter := h.neighbours_prefix.trans (l.neighbours_prefix_reach p')
  obtain ⟨referred, hmeaning⟩ := h.exists_referred name hreference accept
  rw [hmeaning p (.inl rfl), hmeaning p' (.inr rfl)]
  congr 1
  rw [Library.Near] at hnear
  split at hnear
  · next bare hsplit =>
    rw [hsplit, Library.pathOf, Library.pathOf, List.findSome?_cons, List.findSome?_cons,
      h.answer?]
    cases hown : Probe.answer? accept ⟨p, bare⟩ with
    | some found => rfl
    | none =>
        -- the file itself does not declare the name, so an include does
        obtain ⟨r, hr, hdeclared⟩ := hnear.resolve_left (by
          rw [← Probe.isSome_answer? accept ⟨p, bare⟩, hown]
          exact Bool.false_ne_true)
        refine Library.findSome?_eq_of_prefix (hafter.map _) (hbefore.map _)
          ⟨_, List.mem_map_of_mem hr, ?_⟩
        rw [Probe.isSome_answer?]
        exact hdeclared
  · next q bare hsplit =>
    obtain ⟨r, hr, hanswers, hdeclared⟩ := hnear
    rw [hsplit]
    refine Library.findSome?_eq_of_prefix
      (((hafter.filter _).map _).trans (List.prefix_append _ _))
      (((hbefore.filter _).map _).trans (List.prefix_append _ _))
      ⟨_, List.mem_map_of_mem (List.mem_filter.mpr ⟨hr, hanswers⟩), ?_⟩
    rw [Probe.isSome_answer?]
    exact hdeclared

section Closed

variable (hl : l.Closed) (hp : p.Covered l)
  (hown : ¬ l.Leads p.directory.present p.directory.filename)
include hl hp hown

theorem covered : p'.Covered l := by
  refine ⟨h.home ▸ hp.home, fun i hi => ?_⟩
  obtain ⟨r, hr, hfile⟩ := (Library.listed_iff hl hp hown).mpr (h.leads i hi)
  obtain ⟨s, hs, -⟩ := Option.map_eq_some_iff.mp (Library.leads_of_mem_layers hr).1
  exact ⟨s, hfile ▸ hs⟩

/-- Both places can see the same files, as the same places. -/
theorem mem_reach_iff {file : String} {q : Place} :
    (∃ r ∈ l.reach p', r.link.file = file ∧ r.place = q) ↔
      ∃ r ∈ l.reach p, r.link.file = file ∧ r.place = q := by
  rw [Library.mem_reach_iff hl hp hown, Library.mem_reach_iff hl (h.covered hl hp hown),
    h.leads_iff]
  rw [h.leads_iff, h.filename]
  exact hown

theorem isSome_findSome?_reach {α : Type} (f : Place → Option α) :
    ((l.reach p').findSome? fun r => f r.place).isSome =
      ((l.reach p).findSome? fun r => f r.place).isSome := by
  have hiff : ∀ place, (∃ r ∈ l.reach place, (f r.place).isSome) ↔
      ∃ file q, (f q).isSome ∧ ∃ r ∈ l.reach place, r.link.file = file ∧ r.place = q :=
    fun place => ⟨fun ⟨r, hr, hf⟩ => ⟨_, _, hf, r, hr, rfl, rfl⟩,
      fun ⟨_, _, hf, r, hr, _, hq⟩ => ⟨r, hr, hq ▸ hf⟩⟩
  rw [Bool.eq_iff_iff, List.findSome?_isSome_iff, List.findSome?_isSome_iff, hiff, hiff]
  simp only [h.mem_reach_iff hl hp hown]

/-- A bare name means something to one place if and only if it does to the other. -/
theorem isSome_meaning? {name : String} {reference : Option Reference} {accept : DeclKind → Bool}
    (hreference : ∀ r ∈ reference, r.index < p.directory.includes.length)
    (hbare : (splitQualified name).1 = none) :
    (l.meaning? p' name reference accept).isSome =
      (l.meaning? p name reference accept).isSome := by
  obtain ⟨referred, hmeaning⟩ := h.exists_referred name hreference accept
  rw [hmeaning p (.inl rfl), hmeaning p' (.inr rfl), hbare, Library.findSome?_pathOf_none,
    Library.findSome?_pathOf_none, h.answer?]
  simp only [Option.isSome_or,
    h.isSome_findSome?_reach hl hp hown fun q => Probe.answer? accept ⟨q, (splitQualified name).2⟩]

/-- A bare name that one file declares keeps its meaning. -/
theorem meaning?_eq_of_sole {name : String} {reference : Option Reference}
    {accept : DeclKind → Bool}
    (hreference : ∀ r ∈ reference, r.index < p.directory.includes.length)
    (hbare : (splitQualified name).1 = none)
    (hsole : l.Sole p (splitQualified name).2 accept) :
    l.meaning? p' name reference accept = l.meaning? p name reference accept := by
  obtain ⟨referred, hmeaning⟩ := h.exists_referred name hreference accept
  rw [hmeaning p (.inl rfl), hmeaning p' (.inr rfl), hbare, Library.findSome?_pathOf_none,
    Library.findSome?_pathOf_none, h.answer?]
  congr 2
  have hsome := h.isSome_findSome?_reach hl hp hown
    fun q => Probe.answer? accept ⟨q, (splitQualified name).2⟩
  cases hbefore : (l.reach p).findSome? fun r => Probe.answer? accept ⟨r.place, _⟩ with
  | none =>
      rw [hbefore] at hsome
      exact Option.isSome_eq_false_iff.mp hsome |> Option.isNone_iff_eq_none.mp
  | some found =>
      rw [hbefore] at hsome
      obtain ⟨found', hafter⟩ := Option.isSome_iff_exists.mp hsome
      -- both searches end at a file that declares the name, and there is only one
      obtain ⟨r, hr, hfound⟩ := List.exists_of_findSome?_eq_some hbefore
      obtain ⟨r', hr', hfound'⟩ := List.exists_of_findSome?_eq_some hafter
      obtain ⟨r'', hr'', hfile, hplace⟩ :=
        (h.mem_reach_iff hl hp hown).mp ⟨r', hr', rfl, rfl⟩
      have hdeclares : ∀ {q : Place} {a}, Probe.answer? accept ⟨q, (splitQualified name).2⟩ =
          some a → (q.directory.declared? accept (splitQualified name).2).isSome := by
        intro q a ha
        rw [← Probe.isSome_answer? accept ⟨q, _⟩, ha]
        rfl
      have hsame := hsole r hr r'' hr'' (hdeclares hfound) (hplace ▸ hdeclares hfound')
      have hat := (Library.leads_of_mem_layers hr).1
      rw [hsame, (Library.leads_of_mem_layers hr'').1, hplace] at hat
      rw [hafter, ← hfound', Option.some.inj hat, hfound]

end Closed

end Place.Extends

/-! ## Files of a run -/

section Runs

variable {l m : Library}

theorem Library.Leads.of_le (hle : m ≤ l) {is : List Include} {file : String}
    (h : m.Leads is file) : l.Leads is file := by
  induction h with
  | direct hi => exact .direct hi
  | through hi hq _ ih =>
      obtain ⟨s, hs, rfl⟩ := Option.map_eq_some_iff.mp hq
      exact .through hi (Option.map_eq_some_iff.mpr ⟨s, hle _ _ hs, rfl⟩) ih

/-- Includes that stay in a closed library lead to nothing outside of it. -/
theorem Library.Closed.knows_of_leads (hm : m.Closed) (hle : m ≤ l) {is : List Include}
    (his : ∀ i ∈ is, m.Knows i.file) {file : String} (h : l.Leads is file) : m.Knows file := by
  induction h with
  | direct hi => exact his _ hi
  | through hi hq _ ih =>
      rw [place?_eq hle (his _ hi)] at hq
      exact ih (hm.covered hq).includes

variable {s : Scope} {o : Options} {t : Tree} {k : Linkage} (h : s.Built o t m k) (hle : m ≤ l)
include h hle

/-- With the includes of its source, a file does not lead to itself. -/
theorem Scope.Built.not_leads : ¬ l.Leads k.present t.filename := by
  intro hleads
  obtain ⟨u, hu⟩ := h.closed.knows_of_leads hle h.covered hleads
  rw [h.free] at hu
  cases hu

/-- A place of the file between source and finished file. -/
theorem Scope.Built.extends_within {is : List (Option Include)} (hstart : k.includes <+: is)
    (hend : is <+: s.linkage.includes) : (s.within k.includes).Extends l (s.within is) := by
  refine ⟨rfl, rfl, rfl, hstart, fun i hi => (h.spans.leads i ?_).of_le hle⟩
  exact (hend.filterMap id).subset hi

omit hle in
theorem Scope.Built.covered_within {k₁ : Linkage} (hspans : k.Spans m k₁) :
    (s.within k₁.includes).Covered m :=
  ⟨trivial, fun i hi => h.closed.knows_of_leads (le_refl m) h.covered (hspans.leads i hi)⟩

end Runs

/-- The includes are those of the file at a time between its source, which has `count` of them,
and its finished scope. -/
def Scope.Meanwhile (s : Scope) (count : Nat) (is : List (Option Include)) : Prop :=
  s.linkage.includes.take count <+: is ∧ is <+: s.linkage.includes

namespace Scope.Built

variable {s : Scope} {o : Options} {t : Tree} {l m : Library} {k : Linkage} (h : s.Built o t m k)
  (hle : m ≤ l)
include h

theorem filename_within (is : List (Option Include)) :
    (s.within is).directory.filename = t.filename :=
  congrArg Document.filename (Document.document_of_scope h.scope)

/-- Before any type was written, the file had the includes of its source. -/
theorem unwritten_eq : s.unwritten t.includes.length = s.within k.includes := by
  rw [Scope.unwritten, h.take_includes]
  rfl

/-- A linkage in between has the includes of a time in between. -/
theorem meanwhile {k₁ : Linkage} (hspans : k.Spans m k₁) (hend : k₁ ≤ s.linkage) :
    s.Meanwhile t.includes.length k₁.includes :=
  ⟨h.take_includes ▸ hspans.le.2.1, hend.2.1⟩

include hle

/-- The place of the file with the includes of its source. -/
theorem source_place : (s.within k.includes).Covered l ∧
    ¬ l.Leads (s.within k.includes).directory.present
      (s.within k.includes).directory.filename := by
  rw [h.filename_within]
  exact ⟨⟨trivial, fun i hi => (h.covered i hi).mono hle⟩, h.not_leads hle⟩

theorem extends_meanwhile {is : List (Option Include)} (his : s.Meanwhile t.includes.length is) :
    (s.within k.includes).Extends l (s.within is) := by
  rw [Scope.Meanwhile, h.take_includes] at his
  exact h.extends_within hle his.1 his.2

/-- The place of the file at any time knows its includes and does not lead to itself. -/
theorem meanwhile_place (hl : l.Closed) {is : List (Option Include)}
    (his : s.Meanwhile t.includes.length is) : (s.within is).Covered l ∧
      ¬ l.Leads (s.within is).directory.present (s.within is).directory.filename := by
  obtain ⟨hcovered, hown⟩ := h.source_place hle
  have hextends := h.extends_meanwhile hle his
  refine ⟨hextends.covered hl hcovered hown, ?_⟩
  rwa [hextends.leads_iff, hextends.filename]

end Scope.Built

/-- The type was resolved at such a time, and `q` are the finished qualifiers of its homes. -/
structure Scope.Resolves (s : Scope) (g : Language) (l : Library) (count : Nat) (t : IdlType)
    (owner : String) (type : TypeExpr) (q : Home → Option String) : Prop where
  meanwhile : ∃ is, s.Meanwhile count is ∧ l.resolveType (s.within is) t owner = .ok type
  qualifies : ∀ home ∈ type.homes, s.linkage.Qualifies g l home (q home)

/-- What was resolved after the source and written since. -/
theorem Scope.Built.resolves {s : Scope} {o : Options} {t : Tree} {l m : Library} {k k₁ : Linkage}
    (h : s.Built o t m k) (hle : m ≤ l) (hspans : k.Spans m k₁) {type : TypeExpr}
    (hvisit : RenderEnv.visit ⟨o.language, m⟩ k₁ type.homes ≤ s.linkage) {target : IdlType}
    {owner : String} (htype : m.resolveType (s.within k₁.includes) target owner = .ok type) :
    s.Resolves o.language l t.includes.length target owner type
      (RenderEnv.answer ⟨o.language, m⟩ s.linkage) := by
  have hcovered := h.covered_within hspans
  have hholds := holds_resolveType h.closed hcovered htype
  rw [← Library.resolveType_eq hle h.closed hcovered] at htype
  have hend := (RenderEnv.le_visit _ k₁ _).trans hvisit
  exact ⟨⟨k₁.includes, h.meanwhile hspans hend, htype⟩, fun home hhome =>
    (Linkage.Qualifies.of_visit hholds hvisit home hhome).mono hle⟩

/-- **Appended includes keep the meaning of near and of sole names.** Typedefs and constants
are resolved after includes were appended. In every file that a run comes to, whatever was
appended at the time, a name that the file or a direct include declares means what it means to
the fields of the file, and so does a bare name that only one file declares. A bare name means
something at one time if and only if it does at every other. -/
theorem meaning_kept (o : Options) (requests : List Request) {file : String} {s : Scope}
    (hs : ((Run.new o).serveAll requests).library.scope? file = some s) :
    ∃ t : Tree, t.Among (requests.flatMap Request.trees) ∧ s.document = t.document ∧
      let l := ((Run.new o).serveAll requests).library
      let source := s.within (s.linkage.includes.take t.includes.length)
      (∀ d ∈ s.typedefs, ∃ type q, s.Resolves o.language l t.includes.length d.decl.target
        d.decl.name type q ∧ d.type.text = o.language.aliasType (type.spell o.language q)) ∧
      (∀ c ∈ s.constants, ∃ type q, s.Resolves o.language l t.includes.length c.decl.type
        c.decl.name type q ∧ c.type.text = type.spell o.language q) ∧
      ∀ is, s.Meanwhile t.includes.length is → ∀ name reference accept,
        (∀ r ∈ reference, r.index < (t.includes.length : Int)) →
        (l.Near source name accept → l.meaning? (s.within is) name reference accept =
          l.meaning? source name reference accept) ∧
        ((splitQualified name).1 = none →
          (l.meaning? (s.within is) name reference accept).isSome =
              (l.meaning? source name reference accept).isSome ∧
            (l.Sole source (splitQualified name).2 accept →
              l.meaning? (s.within is) name reference accept =
                l.meaning? source name reference accept)) := by
  have hlibrary := Run.sound_serveAll o requests
  obtain ⟨t, m, k, ht, hle, hbuilt⟩ := hlibrary.built file s hs
  refine ⟨t, ht, Document.document_of_scope hbuilt.scope, ?_, ?_, ?_⟩
  · intro d hd
    obtain ⟨k₁, target, hspans, hvisit, htarget, htext⟩ := hbuilt.typedef_resolved hd
    exact ⟨target, _, hbuilt.resolves hle hspans hvisit htarget, htext⟩
  · intro c hc
    obtain ⟨k₁, type, value, hspans, hvisit, htype, -, htext, -⟩ := hbuilt.constant_resolved hc
    -- the type was written before the value
    rw [RenderEnv.visit_append] at hvisit
    exact ⟨type, _, hbuilt.resolves hle hspans ((RenderEnv.le_visit _ _ _).trans hvisit) htype,
      congrArg Rendered.text htext⟩
  · intro is hmeanwhile name reference accept hreference
    rw [hbuilt.take_includes]
    have hextends := hbuilt.extends_meanwhile hle hmeanwhile
    obtain ⟨hcovered, hown⟩ := hbuilt.source_place hle
    have hlength : k.includes.length = t.includes.length :=
      hbuilt.links.length_includes.trans (Nat.zero_add _)
    rw [← hlength] at hreference
    exact ⟨hextends.meaning?_eq_of_near hreference, fun hbare =>
      ⟨hextends.isSome_meaning? hlibrary.closed hcovered hown hreference hbare,
        hextends.meaning?_eq_of_sole hlibrary.closed hcovered hown hreference hbare⟩⟩

namespace Sample

/-- A shade, which a file includes that declares nothing. -/
def first : Tree where
  document := .empty "first.thrift"
  includes := [⟨"shade.thrift", true,
    ⟨{ Document.empty "shade.thrift" with enums := [⟨"Shade", [], []⟩] }, []⟩⟩]

/-- A paint and another shade, which a file includes that declares nothing. -/
def second : Tree where
  document := .empty "second.thrift"
  includes := [⟨"paint.thrift", true,
    ⟨{ Document.empty "paint.thrift" with enums := [⟨"Shade", [], []⟩, ⟨"Paint", [], []⟩] }, []⟩⟩]

/-- A coat of a paint and a shade, and a second name for the shade. -/
def coat : Tree where
  document := { Document.empty "user.thrift" with
    typedefs := [⟨"Tone", .named "Shade" .enum, []⟩]
    structs := [⟨"struct", "Coat",
      [⟨1, "paint", .default, .named "Paint" .enum, none, []⟩,
        ⟨2, "shade", .default, .named "Shade" .enum, none, []⟩], [], none⟩] }
  includes := [⟨"first.thrift", true, first⟩, ⟨"second.thrift", true, second⟩]

/-- The library of a run that has built the coat. -/
def painted : Library := ((Run.new {}).serveAll [.build coat]).library

end Sample

set_option maxRecDepth 100000 in
/-- The shade means something to the fields of the coat, because it does in the finished file. -/
theorem meaning_kept_shade : ∃ s, Sample.painted.scope? "user.thrift" = some s ∧
    ∃ t : Tree, s.document = t.document ∧
      (Sample.painted.meaning? (s.within (s.linkage.includes.take t.includes.length)) "Shade" none
        (· == .enum)).isSome = true := by
  have hfound : (Sample.painted.scope? "user.thrift").any (fun s =>
      (Sample.painted.meaning? (s.within s.linkage.includes) "Shade" none
        (· == .enum)).isSome) = true := by
    decide +kernel
  obtain ⟨s, hs, hfound⟩ := (Option.any_eq_true _ _).mp hfound
  obtain ⟨t, -, hdocument, -, -, hkept⟩ := meaning_kept {} [.build Sample.coat] hs
  have hsame := (hkept s.linkage.includes ⟨List.take_prefix _ _, List.prefix_refl _⟩ "Shade" none
    (· == .enum) (by simp)).2 (by decide)
  exact ⟨s, hs, t, hdocument, hsame.1.symm.trans hfound⟩

set_option maxRecDepth 100000 in
/-- The paint appends its file as a direct include, where it comes before the file of the nearer
shade. So the shade is one declaration as the type of a field and another one as the target of
a typedef. -/
theorem meaning_moves : ∃ s, ∃ st ∈ s.structures.all, ∃ f ∈ st.allFields, ∃ d ∈ s.typedefs,
    Sample.painted.scope? "user.thrift" = some s ∧
      f.decl.type.name = "Shade" ∧ f.type.text = "shade.Shade" ∧
      d.decl.target.name = "Shade" ∧ d.type.text = "paint.Shade" ∧
      Sample.painted.meaning? (s.within (s.linkage.includes.take Sample.coat.includes.length))
        "Shade" none (· == .enum) = some (.foreign "shade.thrift", ⟨"Shade", .enum⟩) ∧
      Sample.painted.meaning? (s.within s.linkage.includes) "Shade" none (· == .enum) =
        some (.foreign "paint.thrift", ⟨"Shade", .enum⟩) := by
  have hfound : (Sample.painted.scope? "user.thrift").any (fun s =>
      (s.structures.all.any fun st => st.allFields.any fun f =>
        f.decl.type.name == "Shade" && f.type.text == "shade.Shade") &&
      (s.typedefs.any fun d => d.decl.target.name == "Shade" && d.type.text == "paint.Shade") &&
      decide (Sample.painted.meaning?
        (s.within (s.linkage.includes.take Sample.coat.includes.length)) "Shade" none
          (· == .enum) = some (.foreign "shade.thrift", ⟨"Shade", .enum⟩)) &&
      decide (Sample.painted.meaning? (s.within s.linkage.includes) "Shade" none (· == .enum) =
        some (.foreign "paint.thrift", ⟨"Shade", .enum⟩))) = true := by
    decide +kernel
  obtain ⟨s, hs, hfound⟩ := (Option.any_eq_true _ _).mp hfound
  simp only [Bool.and_eq_true, List.any_eq_true, decide_eq_true_eq, beq_iff_eq] at hfound
  obtain ⟨⟨⟨⟨st, hst, f, hf, hfield⟩, d, hd, htypedef⟩, hbefore⟩, hafter⟩ := hfound
  exact ⟨s, st, hst, f, hf, d, hd, hs, hfield.1, hfield.2, htypedef.1, htypedef.2, hbefore, hafter⟩

end IdlScope

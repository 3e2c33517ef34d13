import IdlScope.Proofs.Allocations
import IdlScope.Proofs.Exports
import IdlScope.Proofs.Refusals
import IdlScope.Proofs.Runs

/-!
# Conflicts — when what constructs a structure has a name that is taken

The constructor of a structure is called after the structure, and a file whose names leave no room
for it has no scope. Under compatible names a declaration that looks like something derived gives
way in advance: it gets an underscore. A structure may get one as well, and its constructor with
it, and then the two can meet again. In a file without services nothing else can go wrong:

* **`Site.Allots`** — whose names stand in the table of globals, and how they are made up.
* **`Site.tracks_allocateGlobal`**, **`Site.tracks_reserveGlobal`** — what every step adds to the
  table, or why it fails.
* **`Site.clashes_install`** — a conflict, wherever it comes up, is such a meeting.
* **`constructor_conflicts`** — so every conflict is one of a structure with an underscore, and
  without such structures compatible names leave no conflicts.
-/

namespace IdlScope

/-! ## Steps that fail for a reason -/

/-- From every state with `P` the step gives something with `Q`, or it fails with an error that
has `E`. -/
structure Tracks {ε σ α : Type} (P : σ → Prop) (x : StateT σ (Except ε) α) (Q : α → σ → Prop)
    (E : ε → Prop) : Prop where
  gives : Ensures P x Q
  fails : ∀ s e, P s → x.run s = .error e → E e

namespace Tracks

variable {ε σ α β : Type} {P : σ → Prop} {x : StateT σ (Except ε) α} {Q : α → σ → Prop}
  {E : ε → Prop}

theorem weaken {Q' : α → σ → Prop} (h : Tracks P x Q E) (hQ : ∀ a s, Q a s → Q' a s) :
    Tracks P x Q' E :=
  ⟨h.gives.weaken hQ, h.fails⟩

protected theorem pure {a : α} (h : ∀ s, P s → Q a s) :
    Tracks P (pure a : StateT σ (Except ε) α) Q E :=
  ⟨.pure h, fun _ _ _ hx => (by cases hx)⟩

protected theorem bind {f : α → StateT σ (Except ε) β} {R : β → σ → Prop} (hx : Tracks P x Q E)
    (hf : ∀ a, Tracks (Q a) (f a) R E) : Tracks P (x >>= f) R E where
  gives := .bind hx.gives fun a => (hf a).gives
  fails := by
    intro s e hs h
    rw [StateT.run_bind] at h
    rcases bind_eq_error.mp h with h | ⟨⟨a, r⟩, ha, h⟩
    · exact hx.fails s e hs h
    · exact (hf a).fails r e (hx.gives s a r hs ha) h

/-- A step that goes by the state it starts from. -/
theorem bind_get {f : σ → StateT σ (Except ε) β} {R : β → σ → Prop}
    (h : ∀ s, P s → Tracks P (f s) R E) : Tracks P (get >>= f) R E :=
  ⟨.bind_get fun s hs => (h s hs).gives, fun s e hs hx => (h s hs).fails s e hs hx⟩

protected theorem set {r : σ} {Q : PUnit → σ → Prop} (h : (∃ s, P s) → Q ⟨⟩ r) :
    Tracks P (set r : StateT σ (Except ε) PUnit) Q E :=
  ⟨.set h, fun _ _ _ hx => (by cases hx)⟩

protected theorem modify {f : σ → σ} {Q : PUnit → σ → Prop} (h : ∀ s, P s → Q ⟨⟩ (f s)) :
    Tracks P (modify f : StateT σ (Except ε) PUnit) Q E :=
  ⟨.modify h, fun _ _ _ hx => (by cases hx)⟩

protected theorem throw {e : ε} (h : E e) : Tracks P (throw e : StateT σ (Except ε) α) Q E :=
  ⟨.throw, fun _ _ _ hx => (by cases hx; exact h)⟩

protected theorem lift {y : Except ε α} (hok : ∀ a s, y = .ok a → P s → Q a s)
    (herror : ∀ e, y = .error e → E e) : Tracks P (liftM y : StateT σ (Except ε) α) Q E where
  gives := .lift hok
  fails := by
    intro s e _ hx
    cases y with
    | error e' =>
        cases hx
        exact herror e rfl
    | ok a => cases hx

/-- What is known of no state is known from the start. -/
theorem given {p : Prop} (h : p → Tracks P x Q E) : Tracks (fun s => p ∧ P s) x Q E :=
  ⟨.given fun hp => (h hp).gives, fun s e hs hx => (h hs.1).fails s e hs.2 hx⟩

end Tracks

/-- The declarations of a document without services. -/
theorem Document.roles_of_services_eq_nil {d : Document} (h : d.services = []) :
    d.roles = d.structLikes.map (fun s => (s.name, GlobalRole.ofStructure)) ++
      d.enums.map (fun e => (e.name, [GlobalRole.own])) ++
      d.typedefs.map (fun t => (t.name, GlobalRole.ofTypedef t)) ++
      d.constants.map fun c => (c.name, [GlobalRole.own]) := by
  rw [roles, h, List.map_nil, List.nil_append]

namespace Site

variable (w : Site)

/-! ## Names in the table -/

/-- A source name can be exported as `id`, and under compatible names it has an underscore if it
looks derived. -/
structure Suffixes (source id : String) (n : Nat) : Prop where
  exported : Naming.identify source = some id
  suffixed : w.options.compatibleNames = true → looksDerived id = true → 0 < n

theorem Suffixes.spelled {w : Site} {source id : String} {n : Nat} (h : w.Suffixes source id n) :
    Naming.Exported id :=
  Naming.exported_of_identify h.exported

theorem Suffixes.colon_not_mem {w : Site} {source id : String} {n : Nat}
    (h : w.Suffixes source id n) : ':' ∉ source.toList :=
  Naming.colon_not_mem (by rw [h.exported]; rfl)

/-- The name stands for something in `done`: it is made from an exported name with underscores,
which stands in the table as well. -/
def Stands (done : List (String × GlobalRole)) (es : List (String × String))
    (entry : String × String) : Prop :=
  ∃ source role id n, (source, role) ∈ done ∧ role ∈ GlobalRole.ofStructure ∧
    w.Suffixes source id n ∧ entry = role.entry source (NameTable.underscored n id) ∧
    (source, NameTable.underscored n id) ∈ es

/-- No two entries have one key or one name, and all stand for something in `done`. -/
structure Allots (done : List (String × GlobalRole)) (t : NameTable) : Prop where
  distinct : t.Distinct
  stands : ∀ e ∈ t.entries, w.Stands done t.entries e

variable {w} {done done' : List (String × GlobalRole)} {t : NameTable}

theorem Stands.mono {es es' : List (String × String)} {entry : String × String}
    (h : w.Stands done es entry) (hdone : done ⊆ done') (hes : es ⊆ es') :
    w.Stands done' es' entry := by
  obtain ⟨source, role, id, n, hmem, hrole, hsuffixes, hentry, hown⟩ := h
  exact ⟨source, role, id, n, hdone hmem, hrole, hsuffixes, hentry, hes hown⟩

theorem allots_empty : w.Allots [] .empty :=
  ⟨NameTable.distinct_empty, fun _ he => absurd he List.not_mem_nil⟩

/-- A free name for something more. -/
theorem Allots.insert (h : w.Allots done t) {source id : String} {n : Nat} (role : GlobalRole)
    (hrole : role ∈ GlobalRole.ofStructure) (hsuffixes : w.Suffixes source id n)
    (hown : (source, NameTable.underscored n id) ∈
      (t.insert (Naming.tagged role.keyWord source)
        (role.identifier (NameTable.underscored n id))).entries)
    (hkey : t.nameOf? (Naming.tagged role.keyWord source) = none)
    (hname : role.identifier (NameTable.underscored n id) ∉ t.names) :
    w.Allots (done ++ [(source, role)]) (t.insert (Naming.tagged role.keyWord source)
      (role.identifier (NameTable.underscored n id))) := by
  refine ⟨h.distinct.insert hkey hname, fun e he => ?_⟩
  rcases List.mem_append.mp he with hold | hnew
  · exact (h.stands e hold).mono (List.subset_append_left _ _) (List.subset_append_left _ _)
  · obtain rfl := List.mem_singleton.mp hnew
    exact ⟨source, role, id, n, List.mem_append_right _ (List.mem_singleton_self _), hrole,
      hsuffixes, rfl, hown⟩

/-- The key of what is not done has no name. -/
theorem Allots.nameOf?_eq_none (h : w.Allots done t) {source : String} (role : GlobalRole)
    (hsource : ':' ∉ source.toList) (hnew : (source, role) ∉ done) :
    t.nameOf? (Naming.tagged role.keyWord source) = none := by
  cases hkey : t.nameOf? (Naming.tagged role.keyWord source) with
  | none => rfl
  | some held =>
      obtain ⟨other, role', id, n, hmem, -, hsuffixes, hentry, -⟩ :=
        h.stands _ (NameTable.mem_of_nameOf? hkey)
      obtain ⟨hword, rfl⟩ := Naming.tagged_inj role.colon_not_mem_keyWord hsource
        hsuffixes.colon_not_mem (congrArg Prod.fst hentry)
      obtain rfl := GlobalRole.keyWord_injective hword
      exact absurd hmem hnew

/-! ## What stands in the way -/

/-- Why a name got underscores: it looks derived, or it is what an earlier one is exported as. -/
def Yields (earlier : List String) (id : String) : Prop :=
  looksDerived id = true ∨ ∃ twin ∈ earlier, Naming.identify twin = some id

/-- What constructs `source` meets the name of an earlier declaration, which is exported as it
would be and has as many underscores. -/
structure Clash (w : Site) (earlier : List String) (source id : String) (n : Nat)
    (c : NameConflict) : Prop where
  exported : Naming.identify source = some id
  name : c.name = constructorOf (NameTable.underscored n id)
  key : c.key = Naming.synthetic ("new:" ++ source)
  owner : c.owner ∈ earlier
  constructed : Naming.identify c.owner = some (constructorOf id)
  suffixed : w.options.compatibleNames = true → 0 < n
  yields : 0 < n → Yields earlier id

theorem looksDerived_constructorOf (id : String) : looksDerived (constructorOf id) = true := by
  have hstart : Text.startsWith "New" (constructorOf id) = true := by
    simp [Text.startsWith, constructorOf, List.isPrefixOf]
  rw [looksDerived, hstart]
  rfl

/-- A name that a candidate has to give way to is called like it or constructs it. -/
theorem Allots.yields (h : w.Allots done t) {earlier : List String}
    (hdone : ∀ p ∈ done, p.1 ∈ earlier) {id : String} (hid : Naming.Exported id)
    (htaken : id ∈ t.names) : Yields earlier id := by
  obtain ⟨⟨key, name⟩, he, hname⟩ := List.mem_map.mp htaken
  obtain ⟨source, role, other, n, hmem, hrole, hsuffixes, hentry, -⟩ := h.stands _ he
  have heq : role.identifier (NameTable.underscored n other) =
      GlobalRole.own.identifier (NameTable.underscored 0 id) :=
    (congrArg Prod.snd hentry).symm.trans hname
  cases GlobalRole.identifier_eq hrole (by decide) hsuffixes.spelled hid heq with
  | same hname => exact .inr ⟨source, hdone _ hmem, hname ▸ hsuffixes.exported⟩
  | constructed hname => exact .inl (hname ▸ looksDerived_constructorOf other)

section Steps

variable (w)

/-- The declarations of the file with what is made from each. -/
abbrev roles : List (String × List GlobalRole) := w.place.directory.document.roles

/-- If the error is a conflict, it is one of a constructor of the file, with what comes earlier. -/
def Clashes (e : BuildError) : Prop :=
  ∀ file c, e = .nameConflict file c → file = w.file ∧ ∃ before d after,
    w.roles = before ++ d :: after ∧ .constructor ∈ d.2 ∧
      ∃ id n, w.Clash (before.map Prod.fst) d.1 id n c

variable {w} {source : String}

theorem clashes_of_ne {e : BuildError} (h : ∀ file c, e ≠ .nameConflict file c) : w.Clashes e :=
  fun file c heq => absurd heq (h file c)

theorem clashes_identified {raw : String} {e : BuildError}
    (h : identified w.file raw = .error e) : w.Clashes e := by
  rw [identified_eq_error h]
  exact clashes_of_ne fun _ _ h => (by cases h)

theorem clashes_planSlots {s : StructDecl} {e : BuildError}
    (h : planSlots w.options w.library w.place s = .error e) : w.Clashes e := by
  obtain ⟨raw, rfl⟩ | ⟨_, _, _, _, _, _, _, _, rfl⟩ := planSlots_eq_error h
  all_goals exact clashes_of_ne fun _ _ h => (by cases h)

/-! ## Names of declarations -/

/-- What a declaration is called by, with the reason for its underscores. -/
structure Called (w : Site) (earlier : List String) (source id : String) (n : Nat) : Prop extends
    w.Suffixes source id n where
  yields : 0 < n → Yields earlier id

/-- The declaration has its name, and some of what is made from it. -/
structure Entered (w : Site) (done : List (String × GlobalRole)) (source name : String)
    (made : List GlobalRole) (t : NameTable) : Prop where
  own : (source, name) ∈ t.entries
  allots : w.Allots (done ++ made.map (Prod.mk source)) t

/-- The candidate is the exported name, with an underscore if it has to look different. -/
theorem globalCandidate_eq_ok {candidate : String}
    (h : w.globalCandidate source false = .ok candidate) :
    ∃ id n, w.Suffixes source id n ∧ candidate = NameTable.underscored n id ∧
      (0 < n → looksDerived id = true) := by
  obtain ⟨id, hid, h⟩ := bind_eq_ok.mp h
  have hexported := identify_of_identified hid
  have hcandidate := pure_eq_ok.mp h
  by_cases hlooks : w.options.compatibleNames = true ∧ looksDerived id = true
  · rw [if_pos (by simp [hlooks])] at hcandidate
    exact ⟨id, 1, ⟨hexported, fun _ _ => Nat.one_pos⟩, hcandidate.symm, fun _ => hlooks.2⟩
  · rw [if_neg (by simpa using hlooks)] at hcandidate
    refine ⟨id, 0, ⟨hexported, fun hcompatible hderived => ?_⟩, hcandidate.symm, fun h => ?_⟩
    · exact absurd ⟨hcompatible, hderived⟩ hlooks
    · exact absurd h (Nat.lt_irrefl 0)

/-- A candidate that gives way gets more underscores, for a reason. -/
theorem Allots.called (h : w.Allots done t) {earlier : List String}
    (hdone : ∀ p ∈ done, p.1 ∈ earlier) {id : String} {m n : Nat}
    (hsuffixes : w.Suffixes source id m) (hderived : 0 < m → looksDerived id = true)
    (hleast : ∀ j < n, NameTable.underscored j (NameTable.underscored m id) ∈ t.names) :
    w.Called earlier source id (n + m) := by
  refine ⟨⟨hsuffixes.exported, fun hcompatible hlooks => ?_⟩, fun hpos => ?_⟩
  · have hm := hsuffixes.suffixed hcompatible hlooks
    omega
  · by_cases hm : 0 < m
    · exact .inl (hderived hm)
    · -- the exported name itself was taken, so it is that of another or derived from one
      obtain rfl : m = 0 := by omega
      exact h.yields hdone hsuffixes.spelled (hleast 0 (by omega))

/-- **A declaration gets its exported name**, with underscores for a reason. -/
theorem tracks_allocateGlobal {earlier : List String} (hdone : ∀ p ∈ done, p.1 ∈ earlier)
    (hnew : source ∉ earlier) :
    Tracks (fun r => w.Allots done r.globals) (w.allocateGlobal source false)
      (fun name r => (∃ id n, w.Called earlier source id n ∧ name = NameTable.underscored n id) ∧
        w.Entered done source name [.own] r.globals) w.Clashes := by
  rw [allocateGlobal]
  refine .bind (Q := fun candidate r => w.globalCandidate source false = .ok candidate ∧
    w.Allots done r.globals) (.lift (fun _ _ hc hr => ⟨hc, hr⟩) fun e he => ?_) fun candidate => ?_
  · rcases bind_eq_error.mp he with he | ⟨_, -, he⟩
    · exact clashes_identified he
    · cases he
  refine .given fun hcandidate => .bind_get fun r hr => ?_
  obtain ⟨id, m, hsuffixes, rfl, hderived⟩ := globalCandidate_eq_ok hcandidate
  have hkey : r.globals.nameOf? source = none :=
    hr.nameOf?_eq_none .own hsuffixes.colon_not_mem fun hmem => hnew (hdone _ hmem)
  obtain ⟨n, hfresh, hfree, hleast⟩ := r.globals.exists_fresh (NameTable.underscored m id)
  rw [NameTable.add_of_nameOf?_eq_none hkey, hfresh]
  have hcalled := hr.called hdone hsuffixes hderived hleast
  rw [NameTable.underscored_underscored] at hfree ⊢
  have hown : (source, NameTable.underscored (n + m) id) ∈
      (r.globals.insert source (NameTable.underscored (n + m) id)).entries :=
    List.mem_append_right _ (List.mem_singleton_self _)
  have hallots : w.Allots (done ++ [GlobalRole.own].map (Prod.mk source))
      (r.globals.insert source (NameTable.underscored (n + m) id)) :=
    hr.insert .own (by decide) hcalled.toSuffixes hown hkey hfree
  refine .bind (Q := fun _ r => w.Entered done source _ [.own] r.globals)
    (.set fun _ => ⟨hown, hallots⟩) fun _ => .pure fun r h => ?_
  exact ⟨⟨id, n + m, hcalled, rfl⟩, h⟩

/-! ## What is made from names -/

section Made

variable {earlier : List String} {id : String} {n : Nat} {made : List GlobalRole}
  {role : GlobalRole} (h : w.Entered done source (NameTable.underscored n id) made t)
  (hcalled : w.Called earlier source id n) (hdone : ∀ p ∈ done, p.1 ∈ earlier)
include h hcalled hdone

/-- The key of what is not made yet has no name. -/
theorem Entered.nameOf?_eq_none (hnew : source ∉ earlier) (hmade : role ∉ made) :
    t.nameOf? (Naming.tagged role.keyWord source) = none := by
  refine h.allots.nameOf?_eq_none role hcalled.colon_not_mem fun hmem => ?_
  rcases List.mem_append.mp hmem with hmem | hmem
  · exact hnew (hdone _ hmem)
  · obtain ⟨other, hother, heq⟩ := List.mem_map.mp hmem
    obtain ⟨-, rfl⟩ := Prod.mk.inj heq
    exact hmade hother

/-- What is made from a name is added to what is made from it. -/
theorem Entered.insert (hnew : source ∉ earlier) (hrole : role ∈ GlobalRole.ofStructure)
    (hmade : role ∉ made)
    (hfree : t.keyOf? (role.identifier (NameTable.underscored n id)) = none) :
    w.Entered done source (NameTable.underscored n id) (made ++ [role])
      (t.insert (Naming.tagged role.keyWord source)
        (role.identifier (NameTable.underscored n id))) := by
  have hown := List.mem_append_left [(Naming.tagged role.keyWord source,
    role.identifier (NameTable.underscored n id))] h.own
  refine ⟨hown, ?_⟩
  rw [List.map_append, ← List.append_assoc]
  exact h.allots.insert role hrole hcalled.toSuffixes hown
    (h.nameOf?_eq_none hcalled hdone hnew hmade) (NameTable.keyOf?_eq_none_iff.mp hfree)

/-- Only what constructs a declaration can meet a name, which is then that of another one. -/
theorem Entered.clash (hrole : role ∈ GlobalRole.ofStructure) (hother : role ≠ .own)
    {owner : String} (htaken : t.keyOf? (role.identifier (NameTable.underscored n id)) = some owner)
    (hforeign : owner ≠ Naming.tagged role.keyWord source) :
    role = .constructor ∧ w.Clash earlier source id n
      ⟨role.identifier (NameTable.underscored n id), Naming.tagged role.keyWord source, owner⟩ := by
  obtain ⟨twin, role', other, m, hmem, hrole', hsuffixes, hentry, hown⟩ :=
    h.allots.stands _ (NameTable.mem_of_keyOf? htaken)
  obtain ⟨rfl, hidentifier⟩ := Prod.mk.inj hentry
  cases GlobalRole.identifier_eq hrole hrole' hcalled.spelled hsuffixes.spelled hidentifier with
  | same hname hn =>
      -- names made alike from one name are of one declaration, which holds the key itself
      rw [← hname, ← hn] at hown
      rw [h.allots.distinct.key_unique hown h.own] at hforeign
      exact absurd rfl hforeign
  | constructs => exact absurd rfl hother
  | constructed hname hn =>
      have hearlier : twin ∈ earlier := by
        rcases List.mem_append.mp hmem with hmem | hmem
        · exact hdone _ hmem
        · -- a declaration does not construct itself
          obtain ⟨_, -, heq⟩ := List.mem_map.mp hmem
          obtain ⟨rfl, -⟩ := Prod.mk.inj heq
          have hsame : id = constructorOf id :=
            Option.some.inj (hcalled.exported.symm.trans (hname ▸ hsuffixes.exported))
          have hlength := congrArg String.length hsame
          rw [constructorOf, String.length_append, show "New".length = 3 from rfl] at hlength
          omega
      refine ⟨rfl, hcalled.exported, rfl, rfl, hearlier, hname ▸ hsuffixes.exported, ?_,
        hcalled.yields⟩
      intro hcompatible
      rw [hn]
      exact hsuffixes.suffixed hcompatible (hname ▸ looksDerived_constructorOf id)

end Made

/-- **What is made from a name is free, or it is a constructor that meets a declaration.** -/
theorem tracks_reserveGlobal (role : GlobalRole) {name key : String} {made : List GlobalRole}
    {before after : List (String × List GlobalRole)} {d : String × List GlobalRole}
    (hroles : w.roles = before ++ d :: after) (hnew : d.1 ∉ before.map Prod.fst)
    (hdone : ∀ p ∈ done, p.1 ∈ before.map Prod.fst)
    (hcalled : ∃ id n, w.Called (before.map Prod.fst) d.1 id n ∧
      name = NameTable.underscored n id)
    (hmem : role ∈ d.2) (hrole : role ∈ GlobalRole.ofStructure) (hother : role ≠ .own)
    (hmade : role ∉ made) (hkey : Naming.synthetic key = Naming.tagged role.keyWord d.1) :
    Tracks (fun r => w.Entered done d.1 name made r.globals)
      (w.reserveGlobal (role.identifier name) key)
      (fun _ r => w.Entered done d.1 name (made ++ [role]) r.globals) w.Clashes := by
  obtain ⟨id, n, hcalled, rfl⟩ := hcalled
  rw [reserveGlobal, hkey]
  refine .bind_get fun r hr => ?_
  have hunnamed := hr.nameOf?_eq_none hcalled hdone hnew hmade
  rw [NameTable.reserve]
  cases hheld : r.globals.keyOf? (role.identifier (NameTable.underscored n id)) with
  | none =>
      rw [hunnamed]
      exact .set fun _ => hr.insert hcalled hdone hnew hrole hmade hheld
  | some owner =>
      have hforeign : owner ≠ Naming.tagged role.keyWord d.1 := by
        rintro rfl
        have hentry := NameTable.mem_of_keyOf? hheld
        rw [hr.allots.distinct.nameOf?_eq_some_iff.mpr hentry] at hunnamed
        cases hunnamed
      obtain ⟨rfl, hclash⟩ := hr.clash hcalled hdone hrole hother hheld hforeign
      dsimp only
      rw [if_neg hforeign]
      refine .throw fun file c heq => ?_
      obtain ⟨rfl, rfl⟩ := BuildError.nameConflict.inj heq
      exact ⟨rfl, before, d, after, hroles, hmem, id, n, hclash⟩

/-! ## Declarations -/

/-- The names that are made from declarations. -/
def named (es : List (String × List GlobalRole)) : List (String × GlobalRole) :=
  es.flatMap fun e => e.2.map (Prod.mk e.1)

theorem fst_mem_of_mem_named {es : List (String × List GlobalRole)} :
    ∀ p ∈ named es, p.1 ∈ es.map Prod.fst := by
  intro p hp
  obtain ⟨e, he, hp⟩ := List.mem_flatMap.mp hp
  obtain ⟨_, -, rfl⟩ := List.mem_map.mp hp
  exact List.mem_map_of_mem (f := Prod.fst) he

theorem named_concat (es : List (String × List GlobalRole)) (d : String × List GlobalRole) :
    named (es ++ [d]) = named es ++ d.2.map (Prod.mk d.1) := by
  simp [named]

variable (w)

/-- A step that names the declarations `es` after those before them, or fails with a clash. -/
abbrev Adds {α : Type} (x : Install α) (es : List (String × List GlobalRole)) : Prop :=
  ∀ before after, w.roles = before ++ es ++ after →
    Tracks (fun r => w.Allots (named before) r.globals) x
      (fun _ r => w.Allots (named (before ++ es)) r.globals) w.Clashes

section Declarations

variable (hnodup : (w.roles.map Prod.fst).Nodup)
include hnodup

/-- A declaration is named first, and then what is made from its name. -/
theorem adds_declaration {α : Type} {d : String × List GlobalRole} {rest : String → Install α}
    (hrest : ∀ before after name, w.roles = before ++ d :: after → d.1 ∉ before.map Prod.fst →
      (∃ id n, w.Called (before.map Prod.fst) d.1 id n ∧ name = NameTable.underscored n id) →
      Tracks (fun r => w.Entered (named before) d.1 name [.own] r.globals) (rest name)
        (fun _ r => w.Entered (named before) d.1 name d.2 r.globals) w.Clashes) :
    w.Adds (w.allocateGlobal d.1 false >>= rest) [d] := by
  intro before after hroles
  rw [List.append_assoc, List.singleton_append] at hroles
  have hnew : d.1 ∉ before.map Prod.fst := by
    rw [hroles, List.map_append, List.map_cons] at hnodup
    exact fun hmem => (List.nodup_append.mp hnodup).2.2 _ hmem _ List.mem_cons_self rfl
  refine .bind (tracks_allocateGlobal fst_mem_of_mem_named hnew) fun name =>
    .given fun hcalled => ?_
  refine (hrest before after name hroles hnew hcalled).weaken fun _ r h => ?_
  rw [named_concat]
  exact h.allots

omit hnodup in
/-- Listing a structure is no matter of the globals. -/
theorem tracks_listStructure {P : NameTable → Prop} (s : StructDecl) (name : String)
    (kind : StructKind) (purpose : Purpose) :
    Tracks (fun r => P r.globals) (w.listStructure s name kind purpose) (fun _ r => P r.globals)
      w.Clashes := by
  rw [listStructure, nameFields]
  refine .bind (Q := fun _ r => P r.globals) (.modify fun _ h => h) fun _ => ?_
  refine .bind (Q := fun _ r => P r.globals) ?_ fun st =>
    .bind (Q := fun _ r => P r.globals) (.modify fun _ h => h) fun _ => .pure fun _ h => h
  refine .bind (Q := fun _ r => P r.globals) (.lift (fun _ _ _ h => h) fun _ => clashes_planSlots)
    fun plans => ?_
  dsimp only
  cases takenId? plans with
  | some taken =>
      refine .bind (Q := fun _ _ => False) (.throw ?_)
        fun _ => ⟨fun _ _ _ h => h.elim, fun _ _ h => h.elim⟩
      exact clashes_of_ne fun _ _ h => (by cases h)
  | none =>
      exact .bind (Q := fun _ r => P r.globals) (.modify fun _ h => h) fun _ => .pure fun _ h => h

theorem adds_addStructure (s : StructDecl) :
    w.Adds (w.addStructure s .declared) [(s.name, GlobalRole.ofStructure)] := by
  rw [addStructure_eq_bind]
  refine adds_declaration w hnodup (d := (s.name, GlobalRole.ofStructure))
    fun before after name hroles hnew hcalled => ?_
  have hreserve : ∀ role key made, role ∈ GlobalRole.ofStructure → role ≠ .own → role ∉ made →
      Naming.synthetic key = Naming.tagged role.keyWord s.name →
      Tracks (fun r => w.Entered (named before) s.name name made r.globals)
        (w.reserveGlobal (role.identifier name) key)
        (fun _ r => w.Entered (named before) s.name name (made ++ [role]) r.globals) w.Clashes :=
    fun role key made hrole hother hmade hkey =>
      tracks_reserveGlobal role hroles hnew fst_mem_of_mem_named hcalled hrole hrole hother hmade
        hkey
  refine .bind (hreserve .constructor _ _ (by decide) (by decide) (by decide) rfl) fun _ => ?_
  refine .bind (hreserve .idTable _ _ (by decide) (by decide) (by decide) rfl) fun _ => ?_
  split
  · exact .bind (.modify fun _ h => h) fun _ => .pure fun _ h => h
  · next kind _ =>
    rw [if_pos rfl]
    exact .bind (.modify fun _ h => h) fun _ => tracks_listStructure w s name kind .declared

theorem adds_addEnum (e : EnumDecl) : w.Adds (w.addEnum e) [(e.name, [GlobalRole.own])] :=
  adds_declaration w hnodup (d := (e.name, [GlobalRole.own])) fun _ _ _ _ _ _ =>
    .bind (.modify fun _ h => h) fun _ => .modify fun _ h => h

theorem adds_addTypedef (t : TypedefDecl) :
    w.Adds (w.addTypedef t) [(t.name, GlobalRole.ofTypedef t)] := by
  refine adds_declaration w hnodup (d := (t.name, GlobalRole.ofTypedef t))
    fun before after name hroles hnew hcalled => ?_
  by_cases hstruct : t.target.category.isStructLike = true
  · have hof : GlobalRole.ofTypedef t = [.own, .constructor] := by
      rw [GlobalRole.ofTypedef, if_pos hstruct]
    rw [hof] at hroles ⊢
    rw [if_pos hstruct]
    refine .bind (tracks_reserveGlobal .constructor hroles hnew fst_mem_of_mem_named
      hcalled (List.mem_cons_of_mem _ List.mem_cons_self) (by decide) (by decide) (by decide)
      rfl) fun _ => ?_
    exact .bind (.modify fun _ h => h) fun _ => .modify fun _ h => h
  · have hof : GlobalRole.ofTypedef t = [.own] := by
      rw [GlobalRole.ofTypedef, if_neg hstruct]
    rw [hof, if_neg hstruct]
    exact .bind (.modify fun _ h => h) fun _ => .modify fun _ h => h

theorem adds_addConstant (c : ConstantDecl) :
    w.Adds (w.addConstant c) [(c.name, [GlobalRole.own])] :=
  adds_declaration w hnodup (d := (c.name, [GlobalRole.own])) fun _ _ _ _ _ _ =>
    .bind (.modify fun _ h => h) fun _ => .modify fun _ h => h

omit hnodup in
theorem adds_forM {α : Type} {f : α → Install PUnit} {e : α → String × List GlobalRole}
    (h : ∀ a, w.Adds (f a) [e a]) (as : List α) : w.Adds (as.forM f) (as.map e) := by
  -- induction on the declarations left: those that are named go to the front
  induction as with
  | nil =>
      intro before after _
      exact .pure fun r hr => (List.append_nil before).symm ▸ hr
  | cons a as ih =>
      intro before after hroles
      rw [List.map_cons] at hroles ⊢
      have hsplit : before ++ e a :: as.map e = before ++ [e a] ++ as.map e := by simp
      rw [hsplit] at hroles ⊢
      refine .bind (h a before (as.map e ++ after) ?_) fun _ => ih (before ++ [e a]) after hroles
      rw [hroles, List.append_assoc]

/-- **A conflict in a file without services is a clash**, wherever naming comes to it. -/
theorem clashes_install (hservices : w.place.directory.document.services = []) :
    Tracks (fun r => w.Allots [] r.globals) w.install
      (fun _ r => w.Allots (named w.roles) r.globals) w.Clashes := by
  have hroles : w.roles = _ := Document.roles_of_services_eq_nil hservices
  rw [install, hservices]
  refine .bind (Q := fun _ r => w.Allots [] r.globals) (.pure fun _ h => h) fun _ => ?_
  refine .bind (adds_forM w (fun s before after hsplit =>
    .bind (adds_addStructure w hnodup s before after hsplit) fun _ => .pure fun _ h => h)
    _ [] _ (by rw [hroles, List.nil_append, List.append_assoc, List.append_assoc])) fun _ => ?_
  refine .bind (adds_forM w (adds_addEnum w hnodup) _ _ _
    (by rw [hroles, List.nil_append, List.append_assoc])) fun _ => ?_
  refine .bind (adds_forM w (adds_addTypedef w hnodup) _ _ _
    (by rw [hroles, List.nil_append])) fun _ => ?_
  refine (adds_forM w (adds_addConstant w hnodup) _ _ []
    (by rw [hroles, List.nil_append, List.append_nil])).weaken fun _ r h => ?_
  rwa [hroles]

end Declarations

end Steps

end Site

/-! ## Files without services -/

/-- **Compatible names leave those conflicts where the structure has an underscore itself.** In a
file without services whose declarations have different names, whatever it includes, a conflict
comes up at the constructor of a structure, or of a typedef of one: an earlier declaration is
exported as the constructor would be, with as many underscores as the structure. Under compatible
names the structure has an underscore then, because it looks derived itself or because an earlier
declaration is exported like it. So they leave no conflicts in a file where no such structure comes
after a declaration that is exported as its constructor. -/
theorem constructor_conflicts {w : Site} (hservices : w.place.directory.document.services = [])
    (hnodup : (w.roles.map Prod.fst).Nodup) :
    (∀ file c, w.roster = .error (.nameConflict file c) → file = w.file ∧ ∃ before d after,
      w.roles = before ++ d :: after ∧ .constructor ∈ d.2 ∧
        ∃ id n, w.Clash (before.map Prod.fst) d.1 id n c) ∧
    (w.options.compatibleNames = true →
      (∀ before d after id, w.roles = before ++ d :: after → .constructor ∈ d.2 →
        Naming.identify d.1 = some id → Site.Yields (before.map Prod.fst) id →
        ∀ owner ∈ before.map Prod.fst, Naming.identify owner ≠ some (constructorOf id)) →
      ∀ file c, w.roster ≠ .error (.nameConflict file c)) := by
  have hclash : ∀ file c, w.roster = .error (.nameConflict file c) → file = w.file ∧
      ∃ before d after, w.roles = before ++ d :: after ∧ .constructor ∈ d.2 ∧
        ∃ id n, w.Clash (before.map Prod.fst) d.1 id n c := by
    intro file c h
    rcases bind_eq_error.mp h with h | ⟨⟨u, r⟩, -, h⟩
    · exact (w.clashes_install hnodup hservices).fails .empty _ Site.allots_empty h file c rfl
    · cases h
  refine ⟨hclash, fun hcompatible hapart file c h => ?_⟩
  obtain ⟨-, before, d, after, hroles, hconstructor, id, n, hclash⟩ := hclash file c h
  have hyields := hclash.yields (hclash.suffixed hcompatible)
  exact hapart before d after id hroles hconstructor hclash.exported hyields c.owner hclash.owner
    hclash.constructed

namespace Sample

/-- A file with structures of the given names. -/
def users (names : List String) : Tree where
  document := { Document.empty "users.thrift" with
    structs := names.map fun name => ⟨"struct", name, [], [], none⟩ }
  includes := []

/-- The file before it has names, under compatible names. -/
def usersSite (names : List String) : Site :=
  ⟨{ compatibleNames := true }, .empty, ⟨.here, ⟨(users names).document, [], .empty, []⟩⟩⟩

end Sample

set_option maxRecDepth 100000 in
/-- Under compatible names, what constructs a user has its plain name, and what has that name gives
way; with a twin in front of it the user has an underscore, and then its constructor conflicts. -/
theorem constructor_conflicts_user :
    (∀ file c, (Sample.usersSite ["NewUser", "User"]).roster ≠ .error (.nameConflict file c)) ∧
    (∃ r, (Sample.usersSite ["NewUser", "User"]).roster = .ok r ∧
      r.globals.nameOf? "NewUser" = some "NewUser_" ∧
      r.globals.nameOf? "$new:User" = some "NewUser") ∧
    ∃ c, (Sample.usersSite ["NewUser", "user", "User"]).roster =
        .error (.nameConflict "users.thrift" c) ∧ c.name = "NewUser_" ∧
      ∃ earlier source id n,
        (Sample.usersSite ["NewUser", "user", "User"]).Clash earlier source id n c := by
  have happart : ∀ before d after id, (Sample.usersSite ["NewUser", "User"]).roles =
      before ++ d :: after → .constructor ∈ d.2 → Naming.identify d.1 = some id →
      Site.Yields (before.map Prod.fst) id →
      ∀ owner ∈ before.map Prod.fst, Naming.identify owner ≠ some (constructorOf id) := by
    intro before d after id hroles _ hid hyields owner howner
    have hsplit : [("NewUser", GlobalRole.ofStructure), ("User", GlobalRole.ofStructure)] =
        before ++ d :: after := hroles
    rcases before with _ | ⟨first, _ | ⟨second, before⟩⟩
    · exact absurd howner List.not_mem_nil
    · -- the user neither looks derived nor has a twin in front of it
      simp only [List.cons_append, List.nil_append, List.cons.injEq] at hsplit
      obtain ⟨rfl, rfl, -⟩ := hsplit
      have huser : id = "User" := Option.some.inj (hid.symm.trans (by decide +kernel))
      subst huser
      rcases hyields with hderived | ⟨twin, htwin, hexported⟩
      · exact absurd hderived (by decide)
      · rw [List.mem_singleton.mp htwin] at hexported
        exact absurd hexported (by decide +kernel)
    · simp at hsplit
  have hapart := (constructor_conflicts (w := Sample.usersSite ["NewUser", "User"]) rfl
    (by decide)).2 rfl happart
  have hfound : (Sample.usersSite ["NewUser", "User"]).roster.toOption.any (fun r =>
      r.globals.nameOf? "NewUser" == some "NewUser_" &&
        r.globals.nameOf? "$new:User" == some "NewUser") = true := by
    decide +kernel
  obtain ⟨r, hr, hfound⟩ := (Option.any_eq_true _ _).mp hfound
  obtain ⟨hnew, hmade⟩ := Bool.and_eq_true_iff.mp hfound
  have hconflict : (Sample.usersSite ["NewUser", "user", "User"]).roster =
      .error (.nameConflict "users.thrift" ⟨"NewUser_", "$new:User", "NewUser"⟩) := by
    rw [← map_eq_error (f := Roster.globals)]
    decide +kernel
  obtain ⟨-, before, d, _, -, -, id, n, hclash⟩ := (constructor_conflicts
    (w := Sample.usersSite ["NewUser", "user", "User"]) rfl (by decide)).1 _ _ hconflict
  exact ⟨hapart, ⟨r, toOption_eq_some.mp hr, eq_of_beq hnew, eq_of_beq hmade⟩, _, hconflict, rfl,
    _, _, id, n, hclash⟩

set_option maxRecDepth 100000 in
/-- Under compatible names, what constructs a structure that looks derived conflicts with an
earlier structure of that name, in a file with nothing else. -/
theorem constructor_conflict_remains :
    ¬ ∀ w : Site, w.options.compatibleNames = true → w.place.directory.document.services = [] →
      (w.roles.map Prod.fst).Nodup →
      (∀ name ∈ w.roles.map Prod.fst, '$' ∉ name.toList ∧ (Naming.identify name).isSome) →
      ∀ file c, w.roster ≠ .error (.nameConflict file c) := by
  intro h
  have hconflict : (Sample.usersSite ["NewUserArgs", "UserArgs"]).roster =
      .error (.nameConflict "users.thrift" ⟨"NewUserArgs_", "$new:UserArgs", "NewUserArgs"⟩) := by
    rw [← map_eq_error (f := Roster.globals)]
    decide +kernel
  exact h (Sample.usersSite ["NewUserArgs", "UserArgs"]) rfl rfl (by decide) (by decide +kernel)
    _ _ hconflict

end IdlScope

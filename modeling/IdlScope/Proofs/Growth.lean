import IdlScope.Proofs.Reach
import Mathlib.Data.Finset.Card
import Mathlib.Order.Defs.PartialOrder

/-!
# Growth — look-ups in a library that grows

A library only grows, and look-ups must not notice. That holds for a place whose includes
all lead to files of the library, in a library that is closed in the same sense:

* **`Library.Closed`** — every include of every scope leads to a scope.
* **`Place.Covered`** — the includes of a place, and its home, lead to scopes.
* **`Library.reach_eq`** — a covered place sees the same files in every larger library. The
  bound on the number of layers does not matter as long as it counts the files not seen yet.
* **`Library.resolveType_eq`**, **`resolveValue_eq`**, … — so it resolves the same, and
  what it finds is covered again.
-/

namespace IdlScope

namespace Library

/-! ## The order of growth -/

/-- A library grows by scopes of files that it had no scope of. -/
instance : Preorder Library where
  le l m := ∀ file s, l.scope? file = some s → m.scope? file = some s
  le_refl _ _ _ h := h
  le_trans _ _ _ hlm hmn file s h := hmn file s (hlm file s h)

variable {l m : Library}

theorem filename_of_scope? {file : String} {s : Scope} (h : l.scope? file = some s) :
    s.filename = file := by
  simpa using List.find?_some h

theorem mem_of_scope? {file : String} {s : Scope} (h : l.scope? file = some s) :
    s ∈ l.scopes :=
  List.mem_of_find?_eq_some h

/-- Does the library hold a scope of the file? -/
def Knows (l : Library) (file : String) : Prop :=
  ∃ s, l.scope? file = some s

theorem Knows.mono (hle : l ≤ m) {file : String} (h : l.Knows file) : m.Knows file :=
  h.imp fun _ hs => hle _ _ hs

theorem knows_iff_mem {file : String} : l.Knows file ↔ file ∈ l.scopes.map Scope.filename := by
  constructor
  · rintro ⟨s, hs⟩
    exact List.mem_map.mpr ⟨s, mem_of_scope? hs, filename_of_scope? hs⟩
  · intro h
    obtain ⟨s, hs, hfile⟩ := List.mem_map.mp h
    have : (l.scope? file).isSome := List.find?_isSome.mpr ⟨s, hs, by simp [hfile]⟩
    exact Option.isSome_iff_exists.mp this

/-- Files that the smaller library knows have one scope in both. -/
theorem Knows.scope?_eq (hle : l ≤ m) {file : String} (h : l.Knows file) :
    m.scope? file = l.scope? file := by
  obtain ⟨s, hs⟩ := h
  rw [hs, hle _ _ hs]

theorem le_meet (l : Library) (file : String) : l ≤ l.meet file := by
  intro f s h
  rw [meet]
  split <;> exact h

@[simp] theorem scopes_meet (l : Library) (file : String) : (l.meet file).scopes = l.scopes := by
  rw [meet]
  split <;> rfl

@[simp] theorem scope?_meet (l : Library) (file other : String) :
    (l.meet file).scope? other = l.scope? other := by
  rw [scope?, scopes_meet, scope?]

@[simp] theorem knows_meet (l : Library) (file other : String) :
    (l.meet file).Knows other ↔ l.Knows other := by
  rw [Knows, scope?_meet, Knows]

theorem files_meet (l : Library) (file : String) : l.files <+: (l.meet file).files := by
  rw [meet]
  split
  · exact List.prefix_refl _
  · exact List.prefix_append _ _

theorem mem_files_meet (l : Library) (file : String) : file ∈ (l.meet file).files := by
  rw [meet]
  split
  · assumption
  · simp

theorem le_add (l : Library) (s : Scope) : l ≤ l.add s := by
  intro f t h
  rw [scope?, add]
  rw [List.find?_append, show l.scopes.find? (·.filename == f) = some t from h]
  rfl

/-- A scope that is added under a new name is found under it. -/
theorem scope?_add {s : Scope} (h : l.scope? s.filename = none) (file : String) :
    (l.add s).scope? file = if file = s.filename then some s else l.scope? file := by
  unfold scope? at h ⊢
  rw [add, List.find?_append]
  split
  · next heq =>
    rw [heq, h]
    simp
  · next hne =>
    have : (s.filename == file) = false := by simpa using Ne.symm hne
    simp [this]

/-! ## Closed libraries and covered places -/

/-- Every include of every scope leads to a scope. -/
def Closed (l : Library) : Prop :=
  ∀ file s, l.scope? file = some s → ∀ i ∈ s.linkage.present, l.Knows i.file

/-- The home is the file being built or has a scope. -/
def Holds (l : Library) : Home → Prop
  | .here => True
  | .foreign file => l.Knows file

end Library

/-- The place is at a home of the library and includes files of the library only. -/
structure Place.Covered (l : Library) (p : Place) : Prop where
  home : l.Holds p.home
  includes : ∀ i ∈ p.directory.present, l.Knows i.file

namespace Library

variable {l m : Library}

theorem place?_eq (hle : l ≤ m) {file : String} (h : l.Knows file) :
    m.place? file = l.place? file := by
  rw [place?, h.scope?_eq hle, place?]

theorem Closed.meet (hl : l.Closed) (file : String) : (l.meet file).Closed := by
  intro f s hs i hi
  rw [scope?_meet] at hs
  exact (hl f s hs i hi).mono (le_meet l file)

theorem Closed.covered (hl : l.Closed) {file : String} {p : Place} (h : l.place? file = some p) :
    p.Covered l := by
  obtain ⟨s, hs, rfl⟩ := Option.map_eq_some_iff.mp h
  exact ⟨⟨s, hs⟩, hl file s hs⟩

/-- The place itself, or a place of the library. -/
def Sees (l : Library) (p q : Place) : Prop :=
  q = p ∨ ∃ file, l.place? file = some q

theorem Closed.covered_of_sees (hl : l.Closed) {p q : Place} (hp : p.Covered l)
    (h : l.Sees p q) : q.Covered l := by
  rcases h with rfl | ⟨file, hfile⟩
  · exact hp
  · exact hl.covered hfile

theorem sees_placeOf (own : Place) (h : Home) : l.Sees own (l.placeOf own h) := by
  cases h with
  | here => exact .inl rfl
  | foreign file =>
      unfold placeOf
      dsimp only
      cases hp : l.place? file with
      | none => exact .inl rfl
      | some p => exact .inr ⟨file, hp⟩

theorem placeOf_eq (hle : l ≤ m) {h : Home} (hh : l.Holds h) (own : Place) :
    m.placeOf own h = l.placeOf own h := by
  cases h with
  | here => rfl
  | foreign file => rw [placeOf, place?_eq hle hh, placeOf]

/-! ## The files a place can see -/

/-- The files of the library that are not seen yet. -/
def ahead (l : Library) (seen : List String) : Finset String :=
  (l.scopes.map Scope.filename).toFinset \ seen.toFinset

theorem mem_ahead {seen : List String} {file : String} :
    file ∈ l.ahead seen ↔ l.Knows file ∧ file ∉ seen := by
  simp only [ahead, Finset.mem_sdiff, List.mem_toFinset, knows_iff_mem]

/-- There are never more files ahead than scopes in a larger library. -/
theorem card_ahead_le (hle : l ≤ m) (seen : List String) :
    (l.ahead seen).card ≤ m.scopes.length := by
  have hsub : l.ahead seen ⊆ (m.scopes.map Scope.filename).toFinset := by
    intro file h
    rw [List.mem_toFinset, ← knows_iff_mem]
    exact (mem_ahead.mp h).1.mono hle
  calc (l.ahead seen).card ≤ (m.scopes.map Scope.filename).toFinset.card :=
        Finset.card_le_card hsub
    _ ≤ (m.scopes.map Scope.filename).length := List.toFinset_card_le _
    _ = m.scopes.length := List.length_map _

theorem layers_nil (l : Library) (n : Nat) (seen : List String) : layers l n seen [] = [] := by
  induction n generalizing seen with
  | zero => rfl
  | succ n ih =>
      rw [layers]
      exact ih seen

theorem layers_of_unseen_nil {n : Nat} {seen : List String} {layer : List Include}
    (h : unseen seen layer = []) : layers l n seen layer = [] := by
  cases n with
  | zero => rfl
  | succ n =>
      rw [layers]
      simp only [h, List.filterMap_nil, List.flatMap_nil, List.nil_append]
      exact layers_nil l n _

/-- If nothing is ahead, no known include is new. -/
theorem unseen_eq_nil {seen : List String} {layer : List Include}
    (hlayer : ∀ i ∈ layer, l.Knows i.file) (h : (l.ahead seen).card = 0) :
    unseen seen layer = [] := by
  rw [List.eq_nil_iff_forall_not_mem]
  intro i hi
  obtain ⟨hmem, hseen⟩ := mem_unseen hi
  have : i.file ∈ l.ahead seen := mem_ahead.mpr ⟨hlayer i hmem, hseen⟩
  rw [Finset.card_eq_zero.mp h] at this
  exact absurd this (Finset.notMem_empty _)

/-- The next layer is known again. -/
theorem Closed.knows_next (hl : l.Closed) {links : List Include} {j : Include}
    (hj : j ∈ (links.filterMap l.follow?).flatMap (·.place.directory.present)) :
    l.Knows j.file := by
  obtain ⟨r, hr, hj⟩ := List.mem_flatMap.mp hj
  obtain ⟨i, _, hi⟩ := List.mem_filterMap.mp hr
  obtain ⟨q, hq, rfl⟩ := Option.map_eq_some_iff.mp hi
  exact (hl.covered hq).includes j hj

/-- With a new include, fewer files are ahead in the next layer. -/
theorem card_ahead_lt {seen : List String} {layer : List Include} {i : Include}
    (hi : i ∈ unseen seen layer) (hknown : l.Knows i.file) :
    (l.ahead ((unseen seen layer).map Include.file ++ seen)).card < (l.ahead seen).card := by
  have hmem : i.file ∈ l.ahead seen := mem_ahead.mpr ⟨hknown, (mem_unseen hi).2⟩
  apply Finset.card_lt_card
  constructor
  · intro file h
    obtain ⟨hfile, hnot⟩ := mem_ahead.mp h
    exact mem_ahead.mpr ⟨hfile, fun hs => hnot (List.mem_append_right _ hs)⟩
  · intro h
    exact (mem_ahead.mp (h hmem)).2 (List.mem_append_left _ (List.mem_map_of_mem hi))

/-- Layers of covered includes are the same in every larger library, if both bounds count at
least the files ahead. -/
theorem layers_eq (hle : l ≤ m) (hl : l.Closed) (n k : Nat) (seen : List String)
    (layer : List Include) (hlayer : ∀ i ∈ layer, l.Knows i.file)
    (hn : (l.ahead seen).card ≤ n) (hk : (l.ahead seen).card ≤ k) :
    layers m k seen layer = layers l n seen layer := by
  induction n generalizing k seen layer with
  | zero => exact layers_of_unseen_nil (unseen_eq_nil hlayer (Nat.le_zero.mp hn))
  | succ n ih =>
      cases hlinks : unseen seen layer with
      | nil => rw [layers_of_unseen_nil hlinks, layers_of_unseen_nil hlinks]
      | cons i is =>
          have hknown : ∀ j ∈ unseen seen layer, l.Knows j.file :=
            fun j hj => hlayer j (mem_unseen hj).1
          have hi : i ∈ unseen seen layer := hlinks ▸ List.mem_cons_self
          have hmem : i.file ∈ l.ahead seen := mem_ahead.mpr ⟨hknown i hi, (mem_unseen hi).2⟩
          have hless := card_ahead_lt hi (hknown i hi)
          obtain ⟨k, rfl⟩ : ∃ k', k = k' + 1 :=
            ⟨k - 1, by have := Finset.card_pos.mpr ⟨_, hmem⟩; omega⟩
          have hreached : (unseen seen layer).filterMap m.follow? =
              (unseen seen layer).filterMap l.follow? := by
            apply List.filterMap_congr
            intro j hj
            rw [follow?, place?_eq hle (hknown j hj), follow?]
          rw [layers, layers, hreached,
            ih k _ _ (fun _ hj => hl.knows_next hj) (by omega) (by omega)]

section Lookups

variable {p : Place} (hle : l ≤ m) (hl : l.Closed) (hp : p.Covered l)
include hle hl hp

theorem reach_eq : m.reach p = l.reach p :=
  layers_eq hle hl _ _ _ _ hp.includes (card_ahead_le le_rfl _) (card_ahead_le hle _)

theorem reachAs_eq (q : String) : m.reachAs p q = l.reachAs p q := by
  rw [reachAs, reach_eq hle hl hp, reachAs]

/-! ## Look-ups -/

theorem pathOf_eq (qualifier : Option String) (bare : String) :
    m.pathOf p qualifier bare = l.pathOf p qualifier bare := by
  cases qualifier with
  | none => rw [pathOf, reach_eq hle hl hp, pathOf]
  | some q => rw [pathOf, reachAs_eq hle hl hp, pathOf]

omit hl in
theorem referred?_eq (r : Reference) : m.referred? p r = l.referred? p r := by
  rw [referred?, referred?]
  cases hi : p.directory.includeAt? r.index with
  | none => rfl
  | some i =>
      exact place?_eq hle (hp.includes i (mem_present_of_includeAt? hi))

theorem declarationPath_eq (name : String) (reference : Option Reference) :
    m.declarationPath p name reference = l.declarationPath p name reference := by
  rw [declarationPath, declarationPath]
  dsimp only
  rw [pathOf_eq hle hl hp]
  cases reference with
  | none => rfl
  | some r => simp only [referred?_eq hle hp]

theorem structurePath_eq (t : IdlType) : m.structurePath p t = l.structurePath p t := by
  rw [structurePath, structurePath]
  cases t.reference with
  | none => simp only [pathOf_eq hle hl hp]
  | some r => simp only [reach_eq hle hl hp, referred?_eq hle hp]

theorem structureOf?_eq (t : IdlType) : m.structureOf? p t = l.structureOf? p t := by
  rw [structureOf?, structurePath_eq hle hl hp, structureOf?]

theorem declaration?_eq (name : String) (reference : Option Reference)
    (accept : DeclKind → Bool) :
    m.declaration? p name reference accept = l.declaration? p name reference accept := by
  rw [declaration?, declarationPath_eq hle hl hp, declaration?]

end Lookups

/-! ## What is found -/

section Found

variable {p : Place}

theorem Reaches.sees {q : Place} (h : l.Reaches p q) : l.Sees p q :=
  h.imp_right fun ⟨file, hq, _⟩ => ⟨file, hq⟩

theorem Closed.covered_of_reaches (hl : l.Closed) {p q : Place} (hp : p.Covered l)
    (h : l.Reaches p q) : q.Covered l :=
  hl.covered_of_sees hp h.sees

theorem covered_of_declaration? (hl : l.Closed) (hp : p.Covered l) {name : String}
    {reference : Option Reference} {accept : DeclKind → Bool} {q : Place} {d : Declared}
    (h : l.declaration? p name reference accept = some (q, d)) : q.Covered l :=
  hl.covered_of_reaches hp (reaches_of_declaration? h).1

end Found

/-! ## Types and values -/

mutual

theorem resolveValue_congr {p : Place}
    (h : m.resolveIdentifier p = l.resolveIdentifier p) (owner : String) : ∀ v : ConstValue,
    m.resolveValue p owner v = l.resolveValue p owner v
  | .int _ => rfl
  | .double _ => rfl
  | .literal _ => rfl
  | .identifier s => congrFun (congrFun h s) owner
  | .list items => congrArg (Except.map _) (resolveValues_congr h owner items)
  | .map entries => congrArg (Except.map _) (resolveEntries_congr h owner entries)
termination_by structural v => v

theorem resolveValues_congr {p : Place}
    (h : m.resolveIdentifier p = l.resolveIdentifier p) (owner : String) : ∀ vs : List ConstValue,
    m.resolveValues p owner vs = l.resolveValues p owner vs
  | [] => rfl
  | v :: vs => by
    rw [resolveValues, resolveValue_congr h owner v, resolveValues_congr h owner vs, resolveValues]
termination_by structural vs => vs

theorem resolveEntries_congr {p : Place}
    (h : m.resolveIdentifier p = l.resolveIdentifier p) (owner : String) :
    ∀ es : List (ConstValue × ConstValue),
      m.resolveEntries p owner es = l.resolveEntries p owner es
  | [] => rfl
  | e :: es => by
    rw [resolveEntries, resolveEntry_congr h owner e, resolveEntries_congr h owner es,
      resolveEntries]
termination_by structural es => es

theorem resolveEntry_congr {p : Place}
    (h : m.resolveIdentifier p = l.resolveIdentifier p) (owner : String) :
    ∀ e : ConstValue × ConstValue, m.resolveEntry p owner e = l.resolveEntry p owner e
  | (k, v) => by
    rw [resolveEntry, resolveValue_congr h owner k, resolveValue_congr h owner v, resolveEntry]
termination_by structural e => e

end

private theorem findSome?_congr {α β : Type} {f g : α → Option β} {xs : List α}
    (h : ∀ x ∈ xs, f x = g x) : xs.findSome? f = xs.findSome? g := by
  induction xs with
  | nil => rfl
  | cons x xs ih =>
      rw [List.findSome?_cons, List.findSome?_cons, h x List.mem_cons_self,
        ih fun y hy => h y (List.mem_cons_of_mem _ hy)]

section Resolution

variable (hle : l ≤ m) (hl : l.Closed)
include hle hl

theorem behindTypedef_eq (n : Nat) {p : Place} (hp : p.Covered l) (name : String) :
    m.behindTypedef n p name = l.behindTypedef n p name := by
  -- induction on the bound: the next typedef is at a covered place again
  induction n generalizing p name with
  | zero => rfl
  | succ n ih =>
      rw [behindTypedef, behindTypedef]
      refine Option.bind_congr fun t _ => ?_
      dsimp only
      split
      · rfl
      · rw [declaration?_eq hle hl hp]
        refine Option.bind_congr fun found hfound => ?_
        obtain ⟨next, d⟩ := found
        have hnext := covered_of_declaration? hl hp hfound
        dsimp only
        split
        · rfl
        · rfl
        · exact ih hnext _

theorem underlying?_eq {p : Place} (hp : p.Covered l) (t : IdlType) (found : Declared) :
    m.underlying? p t found = l.underlying? p t found := by
  rw [underlying?, underlying?]
  split
  · rfl
  · rfl
  · exact behindTypedef_eq hle hl _ hp _

variable {p : Place} (hp : p.Covered l)
include hp

theorem locate_eq (t : IdlType) (owner : String) : m.locate p t owner = l.locate p t owner := by
  rw [locate]
  rw [declaration?_eq hle hl hp]
  dsimp only
  congr 1
  refine Option.bind_congr fun found hfound => ?_
  obtain ⟨q, d⟩ := found
  rw [underlying?_eq hle hl (covered_of_declaration? hl hp hfound)]

theorem resolveType_eq (t : IdlType) (owner : String) :
    m.resolveType p t owner = l.resolveType p t owner := by
  rw [resolveType, resolveType]
  simp only [locate_eq hle hl hp]

theorem unqualified?_eq (t : IdlType) (owner : String) :
    m.unqualified? p t owner = l.unqualified? p t owner := by
  rw [unqualified?, unqualified?]
  split
  · rfl
  · refine findSome?_congr fun i hi => ?_
    rw [place?_eq hle (hp.includes i hi)]
    refine Option.bind_congr fun q hq => ?_
    rw [locate_eq hle hl (hl.covered hq)]

theorem resolveInSignature_eq (t : IdlType) (owner : String) :
    m.resolveInSignature p t owner = l.resolveInSignature p t owner := by
  rw [resolveInSignature, resolveInSignature]
  simp only [unqualified?_eq hle hl hp, locate_eq hle hl hp]

theorem resolveIdentifier_eq (identifier owner : String) :
    m.resolveIdentifier p identifier owner = l.resolveIdentifier p identifier owner := by
  have hdeclaration : ∀ name accept,
      m.declaration? p name none accept = l.declaration? p name none accept :=
    fun name accept => declaration?_eq hle hl hp name none accept
  have henum : m.enumValue? p identifier = l.enumValue? p identifier := by
    rw [enumValue?, enumValue?]
    simp only [hdeclaration]
  rw [resolveIdentifier, resolveIdentifier]
  rw [hdeclaration, henum]

theorem resolveValue_eq (owner : String) (v : ConstValue) :
    m.resolveValue p owner v = l.resolveValue p owner v :=
  resolveValue_congr (funext₂ (resolveIdentifier_eq hle hl hp)) owner v

end Resolution

end Library

end IdlScope

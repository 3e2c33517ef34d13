import IdlScope.Naming.NameTable
import IdlScope.Table
import Mathlib.Data.Finset.Card
import Mathlib.Data.Finset.Range
import Mathlib.Data.Finset.Image
import Mathlib.Logic.Function.Iterate

/-!
# Names — what a name table gives out

A candidate that is taken grows underscores, and a table of `n` names can stand in the way of
`n` candidates only. So the bounded search of `NameTable.fresh` always ends at a name that is
free (`fresh_not_mem_names`), and it ends at the first such candidate (`exists_fresh`).

So a table that starts without repetitions never gets any: whether a name is asked for
(`gives_add`) or reserved (`gives_reserve`), it belongs to its key alone from then on. Different
keys have different names, therefore (`Distinct.nodup_names`).
-/

namespace IdlScope

namespace NameTable

/-- The name with `n` underscores behind it. -/
def underscored (n : Nat) (name : String) : String :=
  (·.push '_')^[n] name

@[simp] theorem underscored_zero (name : String) : underscored 0 name = name := rfl

theorem underscored_succ (n : Nat) (name : String) :
    underscored (n + 1) name = underscored n (name.push '_') := rfl

theorem length_underscored (n : Nat) (name : String) :
    (underscored n name).length = name.length + n := by
  induction n generalizing name with
  | zero => rfl
  | succ n ih =>
      rw [underscored_succ, ih, String.length_push]
      omega

/-- The search stops behind taken names, at a free one unless it runs out of steps. -/
theorem firstFree_eq (taken : String → Bool) (n : Nat) (name : String) :
    ∃ k ≤ n, firstFree taken n name = underscored k name ∧
      (∀ j < k, taken (underscored j name) = true) ∧
      (k = n ∨ taken (underscored k name) = false) := by
  -- induction on the steps left, for every name: a taken one grows and is searched from again
  induction n generalizing name with
  | zero => exact ⟨0, Nat.le_refl 0, rfl, fun j hj => absurd hj (by omega), Or.inl rfl⟩
  | succ n ih =>
      by_cases h : taken name = true
      · obtain ⟨k, hk, hfree, hbefore, hlast⟩ := ih (name.push '_')
        refine ⟨k + 1, by omega, ?_, ?_, ?_⟩
        · rw [firstFree, if_pos h, hfree, underscored_succ]
        · intro j hj
          cases j with
          | zero => exact h
          | succ j =>
              rw [underscored_succ]
              exact hbefore j (by omega)
        · rcases hlast with rfl | hlast
          · exact Or.inl rfl
          · exact Or.inr hlast
      · refine ⟨0, by omega, ?_, fun j hj => absurd hj (by omega), Or.inr ?_⟩
        · rw [firstFree, if_neg h, underscored_zero]
        · simpa using h

theorem holds_eq_true {t : NameTable} {name : String} :
    t.holds name = true ↔ name ∈ t.names := by
  simp [holds, keyOf?, names, List.find?_isSome]

theorem keyOf?_eq_none_iff {t : NameTable} {name : String} :
    t.keyOf? name = none ↔ name ∉ t.names := by
  rw [← holds_eq_true, holds, Option.not_isSome_iff_eq_none]

theorem mem_of_nameOf? {t : NameTable} {key name : String} (h : t.nameOf? key = some name) :
    (key, name) ∈ t.entries :=
  mem_of_lookup h

theorem mem_of_keyOf? {t : NameTable} {key name : String} (h : t.keyOf? name = some key) :
    (key, name) ∈ t.entries := by
  obtain ⟨⟨key, other⟩, hfound, rfl⟩ := Option.map_eq_some_iff.mp h
  obtain rfl : other = name := by simpa using List.find?_some hfound
  exact List.mem_of_find?_eq_some hfound

/-- The search ends at the first free candidate if it may take a step for every name that can be
taken: so many names cannot block one candidate more. -/
theorem exists_firstFree (taken : String → Bool) {names : List String}
    (hnames : ∀ name, taken name = true → name ∈ names) (candidate : String) :
    ∃ k, firstFree taken names.length candidate = underscored k candidate ∧
      taken (underscored k candidate) = false ∧
        ∀ j < k, taken (underscored j candidate) = true := by
  obtain ⟨k, hk, hfree, hbefore, hlast⟩ := firstFree_eq taken names.length candidate
  refine ⟨k, hfree, ?_, hbefore⟩
  by_contra htaken
  rw [Bool.not_eq_false] at htaken
  have hfull : k = names.length := by
    refine hlast.resolve_right ?_
    rw [htaken]
    exact Bool.true_eq_false_eq_False
  -- all candidates up to the last one would be among the names
  have hsub : (Finset.range (k + 1)).image (underscored · candidate) ⊆ names.toFinset := by
    intro name hname
    obtain ⟨j, hj, rfl⟩ := Finset.mem_image.mp hname
    rw [List.mem_toFinset]
    refine hnames _ ?_
    rcases Nat.lt_or_ge j k with hlt | hge
    · exact hbefore j hlt
    · have hjk : j = k := by
        have := Finset.mem_range.mp hj
        omega
      rw [hjk]
      exact htaken
  have hinj : Function.Injective (underscored · candidate) := by
    intro i j h
    have := congrArg String.length h
    simp only [length_underscored] at this
    omega
  have hcard := Finset.card_le_card hsub
  rw [Finset.card_image_of_injective _ hinj, Finset.card_range] at hcard
  have := names.toFinset_card_le
  omega

/-- The name that a candidate leads to is the candidate with the least number of underscores that
is free. -/
theorem exists_fresh (t : NameTable) (candidate : String) :
    ∃ k, t.fresh candidate = underscored k candidate ∧ underscored k candidate ∉ t.names ∧
      ∀ j < k, underscored j candidate ∈ t.names := by
  have hsize : t.size = t.names.length := by rw [size, names, List.length_map]
  obtain ⟨k, hfresh, hfree, hleast⟩ :=
    exists_firstFree t.holds (fun name => holds_eq_true.mp) candidate
  refine ⟨k, by rw [fresh, hsize, hfresh], ?_, fun j hj => holds_eq_true.mp (hleast j hj)⟩
  rw [← holds_eq_true, hfree]
  exact Bool.false_ne_true

theorem fresh_not_mem_names (t : NameTable) (candidate : String) :
    t.fresh candidate ∉ t.names := by
  obtain ⟨k, hfresh, hfree, -⟩ := t.exists_fresh candidate
  rwa [hfresh]

/-- What a name keeps when it grows by an underscore holds of the name that its candidate
leads to. -/
theorem fresh_of {P : String → Prop} (hpush : ∀ name, P name → P (name.push '_')) (t : NameTable)
    {candidate : String} (h : P candidate) : P (t.fresh candidate) := by
  have hgrown : ∀ k name, P name → P (underscored k name) := by
    intro k
    induction k with
    | zero => exact fun name hname => hname
    | succ k ih => exact fun name hname => ih _ (hpush name hname)
  obtain ⟨k, -, hfresh, -, -⟩ := firstFree_eq t.holds t.size candidate
  rw [fresh, hfresh]
  exact hgrown k candidate h

/-- The name that a key gets is its candidate with underscores, or one that it held before. -/
theorem add_of {P : String → Prop} (hpush : ∀ name, P name → P (name.push '_')) {t : NameTable}
    (ht : ∀ name ∈ t.names, P name) {candidate : String} (h : P candidate) (key : String) :
    P (t.add candidate key).1 ∧ ∀ name ∈ (t.add candidate key).2.names, P name := by
  cases hkey : t.nameOf? key with
  | some name =>
      rw [add_of_nameOf? hkey]
      have hmem : name ∈ t.names := List.mem_map_of_mem (f := Prod.snd) (mem_of_nameOf? hkey)
      exact ⟨ht name hmem, ht⟩
  | none =>
      rw [add_of_nameOf?_eq_none hkey]
      refine ⟨fresh_of hpush t h, ?_⟩
      intro name hname
      rw [names_insert, List.mem_append, List.mem_singleton] at hname
      rcases hname with hname | rfl
      · exact ht name hname
      · exact fresh_of hpush t h

theorem reserve_of {P : String → Prop} {t u : NameTable} (ht : ∀ name ∈ t.names, P name)
    {name key : String} (hname : P name) (h : t.reserve name key = .ok u) :
    ∀ name ∈ u.names, P name := by
  rw [reserve] at h
  split at h
  · split at h
    · cases h
      exact ht
    · cases h
  · split at h
    · cases h
    · cases h
      intro other hother
      rw [names_insert, List.mem_append, List.mem_singleton] at hother
      rcases hother with hother | rfl
      · exact ht other hother
      · exact hname

theorem add_ne_empty {t : NameTable} (ht : ∀ name ∈ t.names, name ≠ "") {candidate : String}
    (h : candidate ≠ "") (key : String) :
    (t.add candidate key).1 ≠ "" ∧ ∀ name ∈ (t.add candidate key).2.names, name ≠ "" :=
  add_of (fun _ _ => by simp) ht h key

/-! ## Tables without repetitions -/

/-- No two entries have one key, and no two have one name. -/
structure Distinct (t : NameTable) : Prop where
  keys : (t.entries.map Prod.fst).Nodup
  names : t.names.Nodup

theorem distinct_empty : empty.Distinct := ⟨.nil, .nil⟩

namespace Distinct

variable {t : NameTable} (h : t.Distinct) {key key' name name' : String}
include h

/-- A key that has no name and a name that has no key make a new entry. -/
protected theorem insert (hkey : t.nameOf? key = none) (hname : name ∉ t.names) :
    (t.insert key name).Distinct := by
  constructor
  · rw [insert, List.map_append, List.map_singleton, List.nodup_append]
    refine ⟨h.keys, List.nodup_singleton _, ?_⟩
    rintro other hother _ hmem rfl
    rw [List.mem_singleton] at hmem
    subst hmem
    obtain ⟨⟨other, taken⟩, hentry, rfl⟩ := List.mem_map.mp hother
    have := List.lookup_eq_none_iff.mp hkey _ hentry
    simp at this
  · rw [names_insert, List.nodup_append]
    refine ⟨h.names, List.nodup_singleton _, ?_⟩
    rintro other hother _ hmem rfl
    exact hname (List.mem_singleton.mp hmem ▸ hother)

/-- A key has one name. -/
theorem name_unique (hname : (key, name) ∈ t.entries) (hname' : (key, name') ∈ t.entries) :
    name = name' :=
  congrArg Prod.snd (List.inj_on_of_nodup_map h.keys hname hname' rfl)

/-- A name has one key. -/
theorem key_unique (hkey : (key, name) ∈ t.entries) (hkey' : (key', name) ∈ t.entries) :
    key = key' :=
  congrArg Prod.fst (List.inj_on_of_nodup_map h.names hkey hkey' rfl)

theorem nameOf?_eq_some_iff : t.nameOf? key = some name ↔ (key, name) ∈ t.entries := by
  constructor
  · exact mem_of_nameOf?
  · intro hmem
    cases hkey : t.nameOf? key with
    | some held => rw [h.name_unique (mem_of_nameOf? hkey) hmem]
    | none =>
        have := List.lookup_eq_none_iff.mp hkey _ hmem
        simp at this

/-- Entries with different keys have different names. -/
theorem nodup_names {es : List (String × String)} (hes : es ⊆ t.entries)
    (hkeys : (es.map Prod.fst).Nodup) : (es.map Prod.snd).Nodup := by
  refine List.Nodup.map_on ?_ (List.Nodup.of_map _ hkeys)
  rintro ⟨key, name⟩ he ⟨key', name'⟩ he' hname
  obtain rfl : name = name' := hname
  rw [h.key_unique (hes he) (hes he')]

end Distinct

/-- The table `u` has grown from `t`, and in it the key has the name. -/
structure Gives (t : NameTable) (key name : String) (u : NameTable) : Prop where
  distinct : t.Distinct → u.Distinct
  kept : t.entries ⊆ u.entries
  given : (key, name) ∈ u.entries

theorem gives_insert {t : NameTable} {key name : String} (hkey : t.nameOf? key = none)
    (hname : name ∉ t.names) : t.Gives key name (t.insert key name) :=
  ⟨fun h => h.insert hkey hname, List.subset_append_left _ _, by simp [insert]⟩

/-- Asking for a name gives one that is the key's alone, whatever the candidate is. -/
theorem gives_add (t : NameTable) (candidate key : String) :
    t.Gives key (t.add candidate key).1 (t.add candidate key).2 := by
  cases hkey : t.nameOf? key with
  | some name =>
      rw [add_of_nameOf? hkey]
      exact ⟨id, List.Subset.refl _, mem_of_nameOf? hkey⟩
  | none =>
      rw [add_of_nameOf?_eq_none hkey]
      exact gives_insert hkey (t.fresh_not_mem_names candidate)

/-- A name that can be reserved is the key's alone. -/
theorem gives_reserve {t u : NameTable} {name key : String} (h : t.reserve name key = .ok u) :
    t.Gives key name u := by
  rw [reserve] at h
  split at h
  · next owner howner =>
    split at h
    · next heq =>
      cases h
      exact ⟨id, List.Subset.refl _, heq ▸ mem_of_keyOf? howner⟩
    · cases h
  · next hname =>
    split at h
    · cases h
    · next hkey =>
      cases h
      refine gives_insert hkey fun hmem => ?_
      have := holds_eq_true.mpr hmem
      rw [holds, hname] at this
      cases this

end NameTable

end IdlScope

/-!
# Tables — values by name

A table keeps one value for each name, in the order in which the names came first. Setting a
name again changes its value and not its place.
-/

namespace IdlScope

/-- What a look-up finds in a list of entries is one of them. -/
theorem mem_of_lookup {α β : Type} [BEq α] [LawfulBEq α] {entries : List (α × β)} {key : α}
    {value : β} (h : entries.lookup key = some value) : (key, value) ∈ entries := by
  obtain ⟨before, after, heq, -⟩ := List.lookup_eq_some_iff.mp h
  rw [heq]
  exact List.mem_append_right _ List.mem_cons_self

/-- Values by name in the order of first entry. -/
@[ext]
structure Table (α : Type) where
  entries : List (String × α)

namespace Table

variable {α : Type}

/-- The table without entries. -/
def empty : Table α := ⟨[]⟩

/-- The value of a name. -/
def get? (t : Table α) (name : String) : Option α :=
  t.entries.lookup name

/-- Is there a value for the name? -/
def contains (t : Table α) (name : String) : Bool :=
  (t.get? name).isSome

/-- Entries with the value of one name set. -/
def setIn : List (String × α) → String → α → List (String × α)
  | [], name, a => [(name, a)]
  | e :: es, name, a => if e.1 = name then (name, a) :: es else e :: setIn es name a

/-- Sets the value of a name. -/
def set (t : Table α) (name : String) (a : α) : Table α :=
  ⟨setIn t.entries name a⟩

/-- Gives a name a value, unless it has one. -/
def setNew (t : Table α) (name : String) (a : α) : Table α :=
  if t.contains name then t else ⟨t.entries ++ [(name, a)]⟩

/-- The table of a list of entries, where a later entry overrides an earlier one. -/
def ofList (entries : List (String × α)) : Table α :=
  entries.foldl (fun t e => t.set e.1 e.2) empty

/-! ## What setting does to a look-up -/

theorem lookup_setIn (es : List (String × α)) (name other : String) (a : α) :
    (setIn es name a).lookup other = if other = name then some a else es.lookup other := by
  induction es with
  | nil =>
    by_cases h : other = name
    · subst h; simp [setIn]
    · have hb : (other == name) = false := by simp [h]
      simp [setIn, h, hb, List.lookup_cons]
  | cons e es ih =>
    obtain ⟨k, v⟩ := e
    simp only [setIn]
    by_cases hk : k = name
    · subst hk
      rw [if_pos rfl]
      by_cases h : other = k
      · subst h; simp
      · have hb : (other == k) = false := by simp [h]
        simp [List.lookup_cons, h, hb]
    · rw [if_neg hk]
      by_cases h : other = k
      · subst h; simp [hk]
      · have hb : (other == k) = false := by simp [h]
        simp only [List.lookup_cons, hb]
        exact ih

/-- After setting a name, it has the value and every other name has what it had. -/
theorem get?_set (t : Table α) (name other : String) (a : α) :
    (t.set name a).get? other = if other = name then some a else t.get? other :=
  lookup_setIn t.entries name other a

/-- A new name is entered behind the others. -/
theorem entries_set_of_get?_eq_none {t : Table α} {name : String}
    (h : t.get? name = none) (a : α) : (t.set name a).entries = t.entries ++ [(name, a)] := by
  have hnew : ∀ e ∈ t.entries, e.1 ≠ name := by
    intro e he heq
    have hne := List.lookup_eq_none_iff.mp h e he
    simp [heq] at hne
  have hset : ∀ es : List (String × α), (∀ e ∈ es, e.1 ≠ name) →
      setIn es name a = es ++ [(name, a)] := by
    intro es hes
    induction es with
    | nil => rfl
    | cons e es ih =>
        rw [setIn, if_neg (hes e List.mem_cons_self),
          ih fun e' he' => hes e' (List.mem_cons_of_mem _ he'), List.cons_append]
  exact hset t.entries hnew

end Table

end IdlScope

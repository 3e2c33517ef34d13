import IdlScope.Proofs.Names

/-!
# Allocations — a name index after any requests

Names are asked for in two ways: a key takes the name that its candidate leads to, or it insists on
one. An index answers from one of its structures and updates all three, so they have to stay in
step, whatever it is asked for:

* **`NameIndex.Added`**, **`NameIndex.Reserved`** — what each of the two requests comes to.
* **`NameIndex.InStep`** — keys by name and names by key are inverse to each other, and the order
  has the allocated names, nothing else and nothing twice.
* **`NameIndex.InStep.serve`**, **`NameIndex.InStep.serveAll`** — one request keeps an index in
  step, and so do all of them.
* **`NameTable.index_serve`** — a name table answers as the index does that it stands for.
* **`names_in_step`** — after any requests an index is in step, its names stand in the order in
  which they were given first, and no key's name ever changes.
-/

namespace IdlScope

/-- What names may be asked for. -/
inductive NameRequest where
  /-- A name for the key, made from the candidate. -/
  | add (candidate key : String)
  /-- Exactly this name for the key. -/
  | reserve (name key : String)

open NameTable (underscored exists_firstFree)

namespace NameIndex

/-! ## Serving requests -/

/-- The name that the key has by a request, or what stands in the way, and the index afterwards. -/
def serve (x : NameIndex) : NameRequest → Except NameConflict String × NameIndex
  | .add candidate key => (.ok (x.add candidate key).1, (x.add candidate key).2)
  | .reserve name key =>
    match x.reserve name key with
    | .ok y => (.ok name, y)
    | .error c => (.error c, x)

/-- The index after requests, one after the other. -/
def serveAll (x : NameIndex) (requests : List NameRequest) : NameIndex :=
  requests.foldl (fun x r => (x.serve r).2) x

/-- The names that requests are answered with, in order. -/
def given (x : NameIndex) : List NameRequest → List String
  | [] => []
  | r :: rs => (x.serve r).1.toOption.toList ++ (x.serve r).2.given rs

theorem serveAll_cons (x : NameIndex) (r : NameRequest) (rs : List NameRequest) :
    x.serveAll (r :: rs) = (x.serve r).2.serveAll rs := rfl

theorem serveAll_concat (x : NameIndex) (rs : List NameRequest) (r : NameRequest) :
    x.serveAll (rs ++ [r]) = ((x.serveAll rs).serve r).2 := by
  rw [serveAll, List.foldl_append]
  rfl

theorem given_concat (x : NameIndex) (rs : List NameRequest) (r : NameRequest) :
    x.given (rs ++ [r]) = x.given rs ++ ((x.serveAll rs).serve r).1.toOption.toList := by
  induction rs generalizing x with
  | nil =>
      show ((x.serve r).1.toOption.toList ++ []) = [] ++ (x.serve r).1.toOption.toList
      rw [List.append_nil, List.nil_append]
  | cons first rs ih =>
      show (x.serve first).1.toOption.toList ++ (x.serve first).2.given (rs ++ [r]) = _
      rw [ih, given, serveAll_cons, List.append_assoc]

/-! ## What the requests come to -/

/-- What asking for a name comes to: the name that the key holds, or the candidate with the least
number of underscores that is no name of the index. -/
inductive Added (x : NameIndex) (candidate key : String) : String × NameIndex → Prop
  | held {name : String} (hkey : x.byKey.get? key = some name) : Added x candidate key (name, x)
  | grown {n : Nat} (hkey : x.byKey.get? key = none)
    (hfree : x.byName.get? (underscored n candidate) = none)
    (hleast : ∀ j < n, (x.byName.get? (underscored j candidate)).isSome) :
    Added x candidate key (underscored n candidate, x.record (underscored n candidate) key)

/-- What insisting on a name comes to: nothing if the key holds it, a new name if both are free,
and otherwise a conflict with the key that holds the name, or with the name that the key holds. -/
inductive Reserved (x : NameIndex) (name key : String) : Except NameConflict NameIndex → Prop
  | bound (hname : x.byName.get? name = some key) : Reserved x name key (.ok x)
  | free (hname : x.byName.get? name = none) (hkey : x.byKey.get? key = none) :
    Reserved x name key (.ok (x.record name key))
  | taken {owner : String} (hname : x.byName.get? name = some owner) (hother : owner ≠ key) :
    Reserved x name key (.error ⟨name, key, owner⟩)
  | named {held : String} (hname : x.byName.get? name = none)
    (hkey : x.byKey.get? key = some held) : Reserved x name key (.error ⟨name, key, held⟩)

/-- The search for a free name ends at the first one. -/
theorem exists_fresh (x : NameIndex) (candidate : String) :
    ∃ n, x.fresh candidate = underscored n candidate ∧
      x.byName.get? (underscored n candidate) = none ∧
      ∀ j < n, (x.byName.get? (underscored j candidate)).isSome := by
  have hnames : ∀ name, x.byName.contains name = true → name ∈ x.byName.entries.map Prod.fst := by
    intro name hname
    obtain ⟨key, hkey⟩ := Option.isSome_iff_exists.mp hname
    exact List.mem_map.mpr ⟨_, mem_of_lookup hkey, rfl⟩
  obtain ⟨n, hfresh, hfree, hleast⟩ := exists_firstFree x.byName.contains hnames candidate
  rw [List.length_map] at hfresh
  have hnone : x.byName.get? (underscored n candidate) = none :=
    Option.isNone_iff_eq_none.mp (Option.isSome_eq_false_iff.mp hfree)
  exact ⟨n, hfresh, hnone, hleast⟩

theorem added_add (x : NameIndex) (candidate key : String) :
    x.Added candidate key (x.add candidate key) := by
  rw [add]
  cases hkey : x.byKey.get? key with
  | some name => exact .held hkey
  | none =>
      obtain ⟨n, hfresh, hfree, hleast⟩ := x.exists_fresh candidate
      rw [hfresh]
      exact .grown hkey hfree hleast

theorem reserved_reserve (x : NameIndex) (name key : String) :
    x.Reserved name key (x.reserve name key) := by
  rw [reserve]
  cases hname : x.byName.get? name with
  | some owner =>
      show x.Reserved name key (if owner = key then .ok x else .error ⟨name, key, owner⟩)
      by_cases hown : owner = key
      · rw [if_pos hown]
        exact .bound (hown ▸ hname)
      · rw [if_neg hown]
        exact .taken hname hown
  | none =>
      cases hkey : x.byKey.get? key with
      | some held => exact .named hname hkey
      | none => exact .free hname hkey

/-! ## Indexes in step -/

/-- Keys by name and names by key are inverse to each other, and the order has exactly the
allocated names, each of them once. -/
structure InStep (x : NameIndex) : Prop where
  inverse : ∀ key name, x.byKey.get? key = some name ↔ x.byName.get? name = some key
  listed : ∀ name, name ∈ x.order ↔ (x.byName.get? name).isSome
  nodup : x.order.Nodup

theorem inStep_empty : empty.InStep := by
  constructor
  · intro key name
    simp [empty, Table.empty, Table.get?]
  · intro name
    simp [empty, Table.empty, Table.get?]
  · exact List.nodup_nil

namespace InStep

variable {x : NameIndex} (h : x.InStep)
include h

theorem not_mem_order {name : String} (hname : x.byName.get? name = none) : name ∉ x.order := by
  rw [h.listed, hname]
  exact Bool.false_ne_true

theorem mem_order {name key : String} (hname : x.byName.get? name = some key) : name ∈ x.order := by
  rw [h.listed, hname]
  rfl

/-- **Recording keeps an index in step** if neither the name nor the key has a counterpart yet. -/
protected theorem record {name key : String} (hname : x.byName.get? name = none)
    (hkey : x.byKey.get? key = none) : (x.record name key).InStep where
  inverse key' name' := by
    rw [NameIndex.record, Table.get?_set, Table.get?_set]
    by_cases hk : key' = key <;> by_cases hn : name' = name
    · rw [if_pos hk, if_pos hn, hk, hn]
      exact ⟨fun _ => rfl, fun _ => rfl⟩
    · rw [if_pos hk, if_neg hn, hk, ← h.inverse, hkey]
      exact ⟨fun heq => absurd (Option.some.inj heq).symm hn, nofun⟩
    · rw [if_neg hk, if_pos hn, hn, h.inverse, hname]
      exact ⟨nofun, fun heq => absurd (Option.some.inj heq).symm hk⟩
    · rw [if_neg hk, if_neg hn]
      exact h.inverse key' name'
  listed name' := by
    rw [NameIndex.record, Table.get?_set, List.mem_append, List.mem_singleton]
    by_cases hn : name' = name
    · rw [if_pos hn]
      exact ⟨fun _ => rfl, fun _ => .inr hn⟩
    · rw [if_neg hn, ← h.listed]
      exact or_iff_left hn
  nodup := by
    refine List.nodup_append.mpr ⟨h.nodup, List.nodup_singleton _, fun a ha b hb hab => ?_⟩
    exact h.not_mem_order hname (List.mem_singleton.mp hb ▸ hab ▸ ha)

/-- A name can be reserved exactly if it and the key are both free, or are held by each other. -/
theorem exists_reserve_iff (name key : String) :
    (∃ y, x.reserve name key = .ok y) ↔
      x.byName.get? name = none ∧ x.byKey.get? key = none ∨ x.byKey.get? key = some name := by
  have hreserved := x.reserved_reserve name key
  generalize x.reserve name key = result at hreserved
  cases hreserved with
  | bound hname => exact ⟨fun _ => .inr ((h.inverse key name).mpr hname), fun _ => ⟨x, rfl⟩⟩
  | free hname hkey => exact ⟨fun _ => .inl ⟨hname, hkey⟩, fun _ => ⟨_, rfl⟩⟩
  | taken hname hother =>
      refine ⟨nofun, ?_⟩
      rintro (⟨hfree, -⟩ | hheld)
      · rw [hname] at hfree
        cases hfree
      · rw [h.inverse, hname] at hheld
        exact absurd (Option.some.inj hheld) hother
  | named hname hkey =>
      refine ⟨nofun, ?_⟩
      rintro (⟨-, hfree⟩ | hheld)
      · rw [hkey] at hfree
        cases hfree
      · rw [h.inverse, hname] at hheld
        cases hheld

end InStep

/-! ## One request -/

/-- What a request does to the index: it gives a name that is there, records the one that it
gives, or changes nothing. -/
inductive Serves (x : NameIndex) : Except NameConflict String × NameIndex → Prop
  | old {key name : String} (hname : x.byName.get? name = some key) : Serves x (.ok name, x)
  | new {key name : String} (hname : x.byName.get? name = none) (hkey : x.byKey.get? key = none) :
    Serves x (.ok name, x.record name key)
  | refused (c : NameConflict) : Serves x (.error c, x)

theorem InStep.serves {x : NameIndex} (h : x.InStep) (r : NameRequest) : x.Serves (x.serve r) := by
  cases r with
  | add candidate key =>
      rw [serve]
      have hadded := x.added_add candidate key
      generalize x.add candidate key = result at hadded
      cases hadded with
      | held hkey => exact .old ((h.inverse _ _).mp hkey)
      | grown hkey hfree => exact .new hfree hkey
  | reserve name key =>
      rw [serve]
      have hreserved := x.reserved_reserve name key
      generalize x.reserve name key = result at hreserved
      cases hreserved with
      | bound hname => exact .old hname
      | free hname hkey => exact .new hname hkey
      | taken | named => exact .refused _

/-- **One request keeps an index in step.** -/
theorem InStep.serve {x : NameIndex} (h : x.InStep) (r : NameRequest) : (x.serve r).2.InStep := by
  have hserves := h.serves r
  generalize x.serve r = result at hserves
  cases hserves with
  | old | refused => exact h
  | new hname hkey => exact h.record hname hkey

/-- A key that has a name keeps it. -/
theorem InStep.byKey_serve {x : NameIndex} (h : x.InStep) (r : NameRequest) {key name : String}
    (hkey : x.byKey.get? key = some name) : (x.serve r).2.byKey.get? key = some name := by
  have hserves := h.serves r
  generalize x.serve r = result at hserves
  cases hserves with
  | old | refused => exact hkey
  | @new key' name' _ hfree =>
      have hne : key ≠ key' := by
        rintro rfl
        rw [hkey] at hfree
        cases hfree
      rw [record, Table.get?_set, if_neg hne]
      exact hkey

/-- The names after a request: the one that it gives is listed, unless it is there. -/
theorem InStep.order_serve {x : NameIndex} (h : x.InStep) (r : NameRequest) :
    (x.serve r).2.order =
      x.order ++ (x.serve r).1.toOption.toList.filter fun name => !x.order.contains name := by
  have hserves := h.serves r
  generalize x.serve r = result at hserves
  cases hserves with
  | old hname => simp [Except.toOption, h.mem_order hname]
  | new hname => simp [Except.toOption, record, h.not_mem_order hname]
  | refused => simp [Except.toOption]

/-! ## All requests -/

theorem InStep.serveAll {x : NameIndex} (h : x.InStep) (requests : List NameRequest) :
    (x.serveAll requests).InStep := by
  induction requests generalizing x with
  | nil => exact h
  | cons r rs ih => exact ih (h.serve r)

/-- Names stay in their places, whatever is asked for later. -/
theorem InStep.order_prefix {x : NameIndex} (h : x.InStep) (requests : List NameRequest) :
    x.order <+: (x.serveAll requests).order := by
  induction requests generalizing x with
  | nil => exact List.prefix_refl _
  | cons r rs ih =>
      refine List.IsPrefix.trans ?_ (ih (h.serve r))
      rw [h.order_serve]
      exact List.prefix_append _ _

/-- A key keeps its name, whatever is asked for later. -/
theorem InStep.byKey_serveAll {x : NameIndex} (h : x.InStep) (requests : List NameRequest)
    {key name : String} (hkey : x.byKey.get? key = some name) :
    (x.serveAll requests).byKey.get? key = some name := by
  induction requests generalizing x with
  | nil => exact hkey
  | cons r rs ih => exact ih (h.serve r) (h.byKey_serve r hkey)

end NameIndex

/-- One more item, if there is one, goes behind a list without repetitions unless it is in it. -/
theorem eraseDups_append_toList (items : List String) (item : Option String) :
    (items ++ item.toList).eraseDups =
      items.eraseDups ++ item.toList.filter fun i => !items.eraseDups.contains i := by
  rw [List.eraseDups_append]
  cases item with
  | none => rfl
  | some i => by_cases hmem : i ∈ items <;> simp [List.removeAll, List.eraseDups_cons, hmem]

/-- The names of an index are those that it gave, in the order in which it gave them first. -/
theorem NameIndex.order_serveAll (requests : List NameRequest) :
    (empty.serveAll requests).order = (empty.given requests).eraseDups := by
  -- from the last request back: the name that it gives stands behind all that were given before
  induction requests using List.reverseRecOn with
  | nil => rfl
  | append_singleton rs r ih =>
      rw [serveAll_concat, (inStep_empty.serveAll rs).order_serve, given_concat,
        eraseDups_append_toList, ih]

/-! ## Name tables -/

namespace NameTable

/-- The name that the key has by a request, or what stands in the way, and the table afterwards. -/
def serve (t : NameTable) : NameRequest → Except NameConflict String × NameTable
  | .add candidate key => (.ok (t.add candidate key).1, (t.add candidate key).2)
  | .reserve name key =>
    match t.reserve name key with
    | .ok u => (.ok name, u)
    | .error c => (.error c, t)

/-- The table after requests, one after the other. -/
def serveAll (t : NameTable) (requests : List NameRequest) : NameTable :=
  requests.foldl (fun t r => (t.serve r).2) t

/-- The index that a table stands for: what its two views find, and its names. -/
def index (t : NameTable) : NameIndex where
  byName := ⟨t.entries.map fun e => (e.2, e.1)⟩
  byKey := ⟨t.entries⟩
  order := t.names

theorem get?_byName_index (t : NameTable) (name : String) :
    t.index.byName.get? name = t.keyOf? name := by
  rw [index, Table.get?, keyOf?]
  induction t.entries with
  | nil => rfl
  | cons e es ih =>
      rw [List.map_cons, List.lookup_cons, List.find?_cons]
      by_cases h : e.2 = name
      · rw [beq_iff_eq.mpr h, beq_iff_eq.mpr h.symm]
        rfl
      · rw [beq_eq_false_iff_ne.mpr h, beq_eq_false_iff_ne.mpr (Ne.symm h)]
        exact ih

theorem get?_byKey_index (t : NameTable) (key : String) :
    t.index.byKey.get? key = t.nameOf? key := rfl

/-- A new entry is what recording a name of its own for a key of its own comes to. -/
theorem record_index {t : NameTable} {name key : String} (hname : t.keyOf? name = none)
    (hkey : t.nameOf? key = none) : t.index.record name key = (t.insert key name).index := by
  have hbyName := Table.entries_set_of_get?_eq_none ((t.get?_byName_index name).trans hname) key
  have hbyKey := Table.entries_set_of_get?_eq_none ((t.get?_byKey_index key).trans hkey) name
  rw [NameIndex.record, index, NameIndex.mk.injEq]
  refine ⟨Table.ext (hbyName.trans ?_), Table.ext hbyKey, (t.names_insert key name).symm⟩
  simp [index, insert]

theorem fresh_index (t : NameTable) (candidate : String) :
    t.index.fresh candidate = t.fresh candidate := by
  have htaken : t.index.byName.contains = t.holds := by
    funext name
    rw [Table.contains, get?_byName_index, holds]
  rw [NameIndex.fresh, fresh, htaken, index, size, List.length_map]

/-- Asking a table for a name is asking its index. -/
theorem add_index (t : NameTable) (candidate key : String) :
    t.index.add candidate key = ((t.add candidate key).1, (t.add candidate key).2.index) := by
  rw [NameIndex.add, get?_byKey_index, add]
  cases hkey : t.nameOf? key with
  | some name => rfl
  | none =>
      have hfree := keyOf?_eq_none_iff.mpr (t.fresh_not_mem_names candidate)
      rw [fresh_index, record_index hfree hkey]

/-- Insisting on a name of a table is insisting on it with its index. -/
theorem reserve_index (t : NameTable) (name key : String) :
    t.index.reserve name key = (t.reserve name key).map index := by
  rw [NameIndex.reserve, get?_byName_index, get?_byKey_index, reserve]
  cases hname : t.keyOf? name with
  | some owner =>
      dsimp only
      split <;> rfl
  | none =>
      cases hkey : t.nameOf? key with
      | some held => rfl
      | none => exact congrArg Except.ok (record_index hname hkey)

/-- **A table answers a request as its index does**, and goes on standing for it. -/
theorem serve_index (t : NameTable) (r : NameRequest) :
    t.index.serve r = ((t.serve r).1, (t.serve r).2.index) := by
  cases r with
  | add candidate key => rw [NameIndex.serve, add_index, serve]
  | reserve name key =>
      rw [NameIndex.serve, reserve_index, serve]
      cases t.reserve name key <;> rfl

theorem serveAll_index (t : NameTable) (requests : List NameRequest) :
    t.index.serveAll requests = (t.serveAll requests).index := by
  induction requests generalizing t with
  | nil => rfl
  | cons r rs ih =>
      rw [NameIndex.serveAll_cons, serve_index]
      exact ih (t.serve r).2

end NameTable

open NameIndex in
/-- **Names are in step after any requests.** Keys by name and names by key are inverse to each
other; the names are listed once each, in the order in which they were given first; and no request
that comes later changes a name or its place. Asking for a name gives the one that the key holds
and changes nothing, or it ends at the candidate with the least number of underscores that is free.
Insisting on a name works exactly if it and its key are both free or are held by each other; in the
second case nothing is added, and what is refused changes nothing. The name tables of a build answer
just so. -/
theorem names_in_step (requests : List NameRequest) :
    let x := NameIndex.empty.serveAll requests
    x.InStep ∧ x.order = (NameIndex.empty.given requests).eraseDups ∧
      (∀ later, x.order <+: (x.serveAll later).order ∧ ∀ key name,
        x.byKey.get? key = some name → (x.serveAll later).byKey.get? key = some name) ∧
      (∀ candidate key, x.Added candidate key (x.add candidate key)) ∧
      (∀ name key, x.Reserved name key (x.reserve name key) ∧
        ((∃ y, x.reserve name key = .ok y) ↔
          x.byName.get? name = none ∧ x.byKey.get? key = none ∨ x.byKey.get? key = some name) ∧
        (x.byKey.get? key = some name → x.reserve name key = .ok x) ∧
        ∀ c, x.reserve name key = .error c → x.serve (.reserve name key) = (.error c, x)) ∧
      let t := NameTable.empty.serveAll requests
      x = t.index ∧ ∀ r, x.serve r = ((t.serve r).1, (t.serve r).2.index) := by
  intro x
  have hinStep : x.InStep := inStep_empty.serveAll requests
  refine ⟨hinStep, order_serveAll requests, ?_, x.added_add, ?_, ?_⟩
  · exact fun later =>
      ⟨hinStep.order_prefix later, fun _ _ hkey => hinStep.byKey_serveAll later hkey⟩
  · intro name key
    refine ⟨x.reserved_reserve name key, hinStep.exists_reserve_iff name key, ?_, ?_⟩
    · intro hkey
      rw [reserve, (hinStep.inverse key name).mp hkey]
      exact if_pos rfl
    · intro c hc
      rw [serve, hc]
  · have hindex : x = (NameTable.empty.serveAll requests).index :=
      NameTable.serveAll_index .empty requests
    refine ⟨hindex, fun r => ?_⟩
    rw [hindex]
    exact NameTable.serve_index _ r

open NameIndex in
/-- Once the name of a method is reserved, a field of that name grows; its name stays when the
method of another field insists on it, which is refused. -/
theorem names_in_step_string :
    let x := NameIndex.empty.serveAll [.reserve "String" "$String", .add "String" "string"]
    x.order = ["String", "String_"] ∧ x.byKey.get? "string" = some "String_" ∧
      x.byName.get? "String_" = some "string" ∧ x.add "Length" "string" = ("String_", x) ∧
      (x.serveAll [.add "String" "text"]).byKey.get? "string" = some "String_" ∧
      (x.serveAll [.add "String" "text"]).order = ["String", "String_", "String__"] ∧
      x.serve (.reserve "String_" "$get:string") =
        (.error ⟨"String_", "$get:string", "string"⟩, x) := by
  intro x
  have hkey : x.byKey.get? "string" = some "String_" := by decide
  obtain ⟨hinStep, hnames, hlater, hadded, hreserved, -⟩ :=
    names_in_step [.reserve "String" "$String", .add "String" "string"]
  obtain ⟨-, -, -, hrefused⟩ := hreserved "String_" "$get:string"
  refine ⟨hnames.trans (by decide), hkey, (hinStep.inverse _ _).mp hkey, ?_,
    (hlater [.add "String" "text"]).2 _ _ hkey, by decide, hrefused _ (by rfl)⟩
  -- the key holds a name, so the candidate does not matter
  have hadd := hadded "Length" "string"
  change x.Added "Length" "string" (x.add "Length" "string") at hadd
  generalize x.add "Length" "string" = result at hadd ⊢
  cases hadd with
  | held h => rw [Option.some.inj (hkey.symm.trans h)]
  | grown h =>
      rw [show x.byKey.get? "string" = none from h] at hkey
      cases hkey

end IdlScope

import IdlScope.Proofs.Allocations
import IdlScope.Proofs.Imports

/-!
# Registrations — an import table after any requests

An import table is asked for the alias of a path, or told that the import of a path is used or is
not. It keeps one list of imports and reads the aliases from it. An import index keeps the aliases
beside the imports. No sequence of requests brings the list out of order, or the index out of step
with it:

* **`ImportTable.Registered`** — what registering a path comes to.
* **`ImportTable.aliases_serveAll`** — the aliases are those that a name table gives when it is
  asked for the same names, so all that is known of name tables is known of them.
* **`ImportTable.mem_imports_serve`** — a request decides the mark of the path that it names and
  leaves all other imports as they are.
* **`ImportTable.serve_index`** — an index that is asked for the same keeps the same imports, and
  their aliases in step.
* **`imports_in_order`** — after any requests every registered path has one import, in the order
  of registration, under an alias of its own that never changes, and with the mark that the last
  request for it left.
-/

namespace IdlScope

/-- What an import table may be asked for. -/
inductive ImportRequest where
  /-- An alias for the path, made from the preferred one. -/
  | add (preferred path : String)
  | markUsed (path : String)
  | markUnused (path : String)

namespace ImportRequest

/-- The path that the request names. -/
def path : ImportRequest → String
  | .add _ path => path
  | .markUsed path => path
  | .markUnused path => path

/-- Does the request put the import in use? -/
def uses : ImportRequest → Bool
  | .add .. => true
  | .markUsed _ => true
  | .markUnused _ => false

/-- The path that the request registers. -/
def registered? : ImportRequest → Option String
  | .add _ path => some path
  | .markUsed _ => none
  | .markUnused _ => none

/-- What the request asks of the aliases. -/
def nameRequest? : ImportRequest → Option NameRequest
  | .add preferred path => some (.add preferred path)
  | .markUsed _ => none
  | .markUnused _ => none

/-- Does the last of the requests that name the path put its import in use? -/
def lastUses (requests : List ImportRequest) (path : String) : Bool :=
  (requests.filter (·.path == path)).getLast?.any uses

theorem lastUses_concat (rs : List ImportRequest) (r : ImportRequest) (path : String) :
    lastUses (rs ++ [r]) path = if r.path = path then r.uses else lastUses rs path := by
  simp only [lastUses, List.filter_append, List.filter_cons, List.filter_nil, beq_iff_eq]
  by_cases h : r.path = path
  · rw [if_pos h, if_pos h, List.getLast?_concat, Option.any_some]
  · rw [if_neg h, if_neg h, List.append_nil]

end ImportRequest

namespace ImportTable

open NameTable (underscored)

/-! ## Serving requests -/

/-- The table after a request. -/
def serve (t : ImportTable) : ImportRequest → ImportTable
  | .add preferred path => (t.add preferred path).2
  | .markUsed path => t.markUsed path
  | .markUnused path => t.markUnused path

/-- The table after requests, one after the other. -/
def serveAll (t : ImportTable) (requests : List ImportRequest) : ImportTable :=
  requests.foldl serve t

theorem serveAll_cons (t : ImportTable) (r : ImportRequest) (rs : List ImportRequest) :
    t.serveAll (r :: rs) = (t.serve r).serveAll rs := rfl

theorem serveAll_concat (t : ImportTable) (rs : List ImportRequest) (r : ImportRequest) :
    t.serveAll (rs ++ [r]) = (t.serveAll rs).serve r := by
  rw [serveAll, List.foldl_append]
  rfl

/-! ## What registering comes to -/

/-- What registering a path comes to: the alias that the path has, with its import in use, or a
new one under the preferred alias with the least number of underscores that no import has. -/
inductive Registered (t : ImportTable) (preferred path : String) : String × ImportTable → Prop
  | known {name : String} (hpath : t.alias? path = some name) :
    Registered t preferred path (name, t.markUsed path)
  | new {n : Nat} (hpath : t.alias? path = none)
    (hfree : underscored n preferred ∉ t.imports.map Import.name)
    (hleast : ∀ j < n, underscored j preferred ∈ t.imports.map Import.name) :
    Registered t preferred path (underscored n preferred,
      ⟨t.imports ++ [⟨underscored n preferred, path, true⟩]⟩)

theorem alias?_eq_none_iff {t : ImportTable} {path : String} :
    t.alias? path = none ↔ path ∉ t.imports.map Import.path := by
  simp [alias?, import?]

/-- The name of a path among the aliases is its alias. -/
theorem nameOf?_aliases (t : ImportTable) (path : String) :
    t.aliases.nameOf? path = t.alias? path := by
  rw [aliases, NameTable.nameOf?, alias?, import?]
  induction t.imports with
  | nil => rfl
  | cons i is ih =>
      rw [List.map_cons, List.lookup_cons, List.find?_cons]
      by_cases h : i.path = path
      · rw [beq_iff_eq.mpr h, beq_iff_eq.mpr h.symm]
        rfl
      · rw [beq_eq_false_iff_ne.mpr h, beq_eq_false_iff_ne.mpr (Ne.symm h)]
        exact ih

theorem names_aliases (t : ImportTable) : t.aliases.names = t.imports.map Import.name := by
  rw [NameTable.names, aliases, List.map_map]
  rfl

/-- Registering a path is asking the aliases for its name. -/
theorem add_aliases (t : ImportTable) (preferred path : String) :
    t.aliases.add preferred path =
      ((t.add preferred path).1, (t.add preferred path).2.aliases) := by
  have hname := t.nameOf?_aliases path
  rw [add]
  cases hpath : t.alias? path with
  | some name =>
      rw [NameTable.add_of_nameOf? (hname.trans hpath)]
      show (name, t.aliases) = (name, (t.setUsed path true).aliases)
      rw [aliases_setUsed]
  | none =>
      rw [NameTable.add_of_nameOf?_eq_none (hname.trans hpath)]
      simp [aliases, NameTable.insert]

theorem registered_add (t : ImportTable) (preferred path : String) :
    t.Registered preferred path (t.add preferred path) := by
  rw [add]
  cases hpath : t.alias? path with
  | some name => exact .known hpath
  | none =>
      obtain ⟨n, hfresh, hfree, hleast⟩ := t.aliases.exists_fresh preferred
      rw [names_aliases] at hfree hleast
      rw [hfresh]
      exact .new hpath hfree hleast

/-! ## Marks -/

/-- Marking a path that is not registered changes nothing. -/
theorem setUsed_of_alias?_eq_none {t : ImportTable} {path : String} (h : t.alias? path = none)
    (used : Bool) : t.setUsed path used = t := by
  have hsame : (t.setUsed path used).imports = t.imports := by
    rw [setUsed]
    refine (List.map_congr_left fun i hi => ?_).trans (List.map_id _)
    have hpath : i.path ≠ path := fun heq =>
      alias?_eq_none_iff.mp h (List.mem_map.mpr ⟨i, hi, heq⟩)
    rw [if_neg hpath]
    rfl
  cases t
  exact congrArg ImportTable.mk hsame

theorem mem_imports_setUsed {t : ImportTable} {path : String} {used : Bool} {i : Import}
    (h : i ∈ (t.setUsed path used).imports) :
    i.path = path ∧ i.used = used ∨ i.path ≠ path ∧ i ∈ t.imports := by
  obtain ⟨j, hj, rfl⟩ := List.mem_map.mp h
  by_cases hpath : j.path = path
  · rw [if_pos hpath]
    exact .inl ⟨hpath, rfl⟩
  · rw [if_neg hpath]
    exact .inr ⟨hpath, hj⟩

/-! ## One request -/

/-- **A request decides the mark of the path that it names**, and every other import is as it
was. -/
theorem mem_imports_serve {t : ImportTable} {r : ImportRequest} {i : Import}
    (h : i ∈ (t.serve r).imports) :
    i.path = r.path ∧ i.used = r.uses ∨ i.path ≠ r.path ∧ i ∈ t.imports := by
  cases r with
  | markUsed path | markUnused path => exact mem_imports_setUsed h
  | add preferred path =>
      have hadd := t.registered_add preferred path
      rw [serve] at h
      generalize t.add preferred path = result at hadd h
      cases hadd with
      | known => exact mem_imports_setUsed h
      | new hpath =>
          rcases List.mem_append.mp h with hi | hi
          · have hother : i.path ≠ path := fun heq =>
              alias?_eq_none_iff.mp hpath (List.mem_map.mpr ⟨i, hi, heq⟩)
            exact .inr ⟨hother, hi⟩
          · rw [List.mem_singleton.mp hi]
            exact .inl ⟨rfl, rfl⟩

/-- A request asks the aliases for a name, or leaves them alone. -/
theorem aliases_serve (t : ImportTable) (r : ImportRequest) :
    (t.serve r).aliases = t.aliases.serveAll r.nameRequest?.toList := by
  cases r with
  | markUsed path | markUnused path => exact t.aliases_setUsed path _
  | add preferred path =>
      show (t.add preferred path).2.aliases = (t.aliases.add preferred path).2
      rw [add_aliases]

theorem paths_aliases (t : ImportTable) :
    t.imports.map Import.path = t.aliases.entries.map Prod.fst := by
  rw [aliases, List.map_map]
  rfl

/-- One path out of a list of paths, if it is not in another. -/
theorem filter_unlisted (path : String) (paths : List String) :
    (some path).toList.filter (fun path => !paths.contains path) =
      if path ∈ paths then [] else [path] := by
  by_cases h : path ∈ paths <;> simp [h]

/-- The paths after a request: the one that it registers is listed, unless it is there. -/
theorem paths_serve (t : ImportTable) (r : ImportRequest) :
    (t.serve r).imports.map Import.path = t.imports.map Import.path ++
      r.registered?.toList.filter fun path => !(t.imports.map Import.path).contains path := by
  cases r with
  | markUsed path | markUnused path =>
      show (t.setUsed path _).imports.map Import.path = _
      rw [paths_aliases, aliases_setUsed, ← paths_aliases]
      exact (List.append_nil _).symm
  | add preferred path =>
      have hadd := t.registered_add preferred path
      show (t.add preferred path).2.imports.map Import.path = _
      generalize t.add preferred path = result at hadd
      cases hadd with
      | known hpath =>
          have hmem : path ∈ t.imports.map Import.path := by
            by_contra hnone
            rw [alias?_eq_none_iff.mpr hnone] at hpath
            cases hpath
          show (t.setUsed path true).imports.map Import.path = _
          rw [paths_aliases, aliases_setUsed, ← paths_aliases, ImportRequest.registered?,
            filter_unlisted, if_pos hmem, List.append_nil]
      | new hpath =>
          rw [ImportRequest.registered?, filter_unlisted, if_neg (alias?_eq_none_iff.mp hpath),
            List.map_append]
          rfl

theorem Distinct.serve {t : ImportTable} (h : t.Distinct) (r : ImportRequest) :
    (t.serve r).Distinct := by
  cases r with
  | add preferred path => exact h.add preferred path
  | markUsed path => exact h.setUsed path true
  | markUnused path => exact h.setUsed path false

/-- An alias that a path has stays. -/
theorem alias?_serve {t : ImportTable} {path name : String} (h : t.alias? path = some name)
    (r : ImportRequest) : (t.serve r).alias? path = some name := by
  cases r with
  | markUsed other | markUnused other => exact (t.alias?_setUsed other path _).trans h
  | add preferred other =>
      show (t.add preferred other).2.alias? path = some name
      rw [alias?_add]
      split
      · next heq =>
        subst heq
        rw [add, h]
      · exact h

/-! ## All requests -/

theorem Distinct.serveAll {t : ImportTable} (h : t.Distinct) (requests : List ImportRequest) :
    (t.serveAll requests).Distinct := by
  induction requests generalizing t with
  | nil => exact h
  | cons r rs ih => exact ih (h.serve r)

/-- **An alias that a path has stays**, whatever is asked for later. -/
theorem alias?_serveAll {t : ImportTable} {path name : String} (h : t.alias? path = some name)
    (requests : List ImportRequest) : (t.serveAll requests).alias? path = some name := by
  induction requests generalizing t with
  | nil => exact h
  | cons r rs ih => exact ih (alias?_serve h r)

/-- The aliases are those of a name table that is asked for the same names. -/
theorem aliases_serveAll (t : ImportTable) (requests : List ImportRequest) :
    (t.serveAll requests).aliases =
      t.aliases.serveAll (requests.filterMap ImportRequest.nameRequest?) := by
  induction requests generalizing t with
  | nil => rfl
  | cons r rs ih =>
      rw [serveAll_cons, ih, aliases_serve, List.filterMap_eq_flatMap_toList,
        List.filterMap_eq_flatMap_toList, List.flatMap_cons]
      exact (List.foldl_append ..).symm

/-- The paths of a table are those that were registered, in the order of their first time. -/
theorem paths_serveAll (requests : List ImportRequest) :
    (empty.serveAll requests).imports.map Import.path =
      (requests.filterMap ImportRequest.registered?).eraseDups := by
  -- from the last request back: what it registers stands behind all that was registered before
  induction requests using List.reverseRecOn with
  | nil => rfl
  | append_singleton rs r ih =>
      have hlast : [r].filterMap ImportRequest.registered? = r.registered?.toList := by
        simp [List.filterMap_eq_flatMap_toList]
      rw [serveAll_concat, paths_serve, List.filterMap_append, hlast, eraseDups_append_toList, ih]

/-- An import has the mark that the last request for its path left. -/
theorem used_serveAll (requests : List ImportRequest) :
    ∀ i ∈ (empty.serveAll requests).imports, i.used = ImportRequest.lastUses requests i.path := by
  induction requests using List.reverseRecOn with
  | nil => exact fun i hi => absurd hi List.not_mem_nil
  | append_singleton rs r ih =>
      intro i hi
      rw [serveAll_concat] at hi
      rw [ImportRequest.lastUses_concat]
      rcases mem_imports_serve hi with ⟨hpath, hused⟩ | ⟨hpath, hi⟩
      · rw [if_pos hpath.symm, hused]
      · rw [if_neg (Ne.symm hpath), ih i hi]

/-- The registered paths are those with an alias. -/
theorem alias?_serveAll_eq_none_iff (requests : List ImportRequest) (path : String) :
    (empty.serveAll requests).alias? path = none ↔
      path ∉ requests.filterMap ImportRequest.registered? := by
  rw [alias?_eq_none_iff, paths_serveAll, List.mem_eraseDups]

/-- **The alias of a path is fixed when it is first registered**: the preferred alias with the
least number of underscores that is not taken then. -/
theorem alias?_of_first {before : List ImportRequest} {path : String}
    (hfirst : path ∉ before.filterMap ImportRequest.registered?) (preferred : String)
    (later : List ImportRequest) :
    ∃ n, underscored n preferred ∉ (empty.serveAll before).imports.map Import.name ∧
      (∀ j < n, underscored j preferred ∈ (empty.serveAll before).imports.map Import.name) ∧
      (empty.serveAll (before ++ .add preferred path :: later)).alias? path =
        some (underscored n preferred) := by
  have hnone := (alias?_serveAll_eq_none_iff before path).mpr hfirst
  have hserved : empty.serveAll (before ++ .add preferred path :: later) =
      ((empty.serveAll before).add preferred path).2.serveAll later := by
    rw [serveAll, List.foldl_append]
    rfl
  have halias := (empty.serveAll before).alias?_add preferred path path
  rw [if_pos rfl] at halias
  rw [hserved, alias?_serveAll halias]
  have hadd := (empty.serveAll before).registered_add preferred path
  generalize (empty.serveAll before).add preferred path = result at hadd
  cases hadd with
  | known hpath =>
      rw [hnone] at hpath
      cases hpath
  | @new n _ hfree hleast => exact ⟨n, hfree, hleast, rfl⟩

/-- A path is used if it is registered and the last request for it put it in use. -/
theorem isUsed_serveAll (requests : List ImportRequest) (path : String) :
    (empty.serveAll requests).isUsed path =
      (((empty.serveAll requests).alias? path).isSome &&
        ImportRequest.lastUses requests path) := by
  have hused := used_serveAll requests
  rw [isUsed, alias?]
  cases hfind : (empty.serveAll requests).import? path with
  | none => rfl
  | some i =>
      have hpath : i.path = path := by simpa using List.find?_some hfind
      rw [← hpath, ← hused i (List.mem_of_find?_eq_some hfind)]
      rfl

/-! ## Import indexes -/

/-- The index that a table stands for. -/
def index (t : ImportTable) : ImportIndex where
  imports := ⟨t.imports.map fun i => (i.path, i)⟩
  aliases := t.aliases.index

theorem get?_imports_index (t : ImportTable) (path : String) :
    t.index.imports.get? path = t.import? path := by
  rw [index, Table.get?, import?]
  induction t.imports with
  | nil => rfl
  | cons i is ih =>
      rw [List.map_cons, List.lookup_cons, List.find?_cons]
      by_cases h : i.path = path
      · rw [beq_iff_eq.mpr h, beq_iff_eq.mpr h.symm]
      · rw [beq_eq_false_iff_ne.mpr h, beq_eq_false_iff_ne.mpr (Ne.symm h)]
        exact ih

/-- Setting the import of a path that has one is setting it in the list. -/
theorem setIn_imports {is : List Import} (hpaths : (is.map Import.path).Nodup) {i : Import}
    (hi : i ∈ is) (f : Import → Import) :
    Table.setIn (is.map fun i => (i.path, i)) i.path (f i) =
      (is.map fun j => (j.path, if j.path = i.path then f j else j)) := by
  induction is with
  | nil => exact absurd hi List.not_mem_nil
  | cons j js ih =>
      rw [List.map_cons, List.nodup_cons] at hpaths
      rw [List.map_cons, List.map_cons, Table.setIn]
      by_cases hpath : j.path = i.path
      · -- no other import has the path
        have hother : ∀ k ∈ js, k.path ≠ i.path := fun k hk heq =>
          hpaths.1 (List.mem_map.mpr ⟨k, hk, heq.trans hpath.symm⟩)
        obtain rfl : i = j := by
          rcases List.mem_cons.mp hi with rfl | hi
          · rfl
          · exact absurd rfl (hother i hi)
        rw [if_pos rfl, if_pos rfl]
        refine congrArg _ (List.map_congr_left fun k hk => ?_)
        rw [if_neg (hother k hk)]
      · have hi : i ∈ js := (List.mem_cons.mp hi).resolve_left fun heq => hpath (heq ▸ rfl)
        rw [if_neg hpath, if_neg hpath, ih hpaths.2 hi]

theorem setUsed_index {t : ImportTable} (h : t.Distinct) (path : String) (used : Bool) :
    t.index.setUsed path used = (t.setUsed path used).index := by
  rw [ImportIndex.setUsed, get?_imports_index]
  cases hfind : t.import? path with
  | none =>
      rw [setUsed_of_alias?_eq_none (by rw [alias?, hfind]; rfl)]
  | some i =>
      have hi : i ∈ t.imports := List.mem_of_find?_eq_some hfind
      obtain rfl : i.path = path := by simpa using List.find?_some hfind
      have hset := setIn_imports h.paths hi fun i => { i with used := used }
      have himports : (t.setUsed i.path used).imports.map (fun i => (i.path, i)) =
          t.imports.map fun j =>
            (j.path, if j.path = i.path then { j with used := used } else j) := by
        rw [setUsed, List.map_map]
        refine List.map_congr_left fun j _ => ?_
        by_cases hpath : j.path = i.path <;> simp [hpath]
      dsimp only
      rw [index, index, aliases_setUsed, himports, ← hset]
      rfl

/-- Registering a path with a table is registering it with its index. -/
theorem add_index {t : ImportTable} (h : t.Distinct) (preferred path : String) :
    t.index.add preferred path = ((t.add preferred path).1, (t.add preferred path).2.index) := by
  rw [ImportIndex.add, get?_imports_index, add, alias?]
  cases hfind : t.import? path with
  | some i => exact congrArg (i.name, ·) (setUsed_index h path true)
  | none =>
      have hnone : t.alias? path = none := by rw [alias?, hfind]; rfl
      have hadd := t.add_aliases preferred path
      rw [add, hnone] at hadd
      have hnew := Table.entries_set_of_get?_eq_none
        ((t.get?_imports_index path).trans hfind) ⟨t.aliases.fresh preferred, path, true⟩
      dsimp only [Option.map_none] at hadd ⊢
      rw [show t.index.aliases = t.aliases.index from rfl, NameTable.add_index, hadd]
      refine congrArg (_, ImportIndex.mk · _) (Table.ext (hnew.trans ?_))
      simp [index]

end ImportTable

namespace ImportIndex

/-- The index after a request. -/
def serve (x : ImportIndex) : ImportRequest → ImportIndex
  | .add preferred path => (x.add preferred path).2
  | .markUsed path => x.setUsed path true
  | .markUnused path => x.setUsed path false

/-- The index after requests, one after the other. -/
def serveAll (x : ImportIndex) (requests : List ImportRequest) : ImportIndex :=
  requests.foldl serve x

end ImportIndex

namespace ImportTable

/-- **An index that a table stands for is asked for the same**, and the table goes on standing for
it. -/
theorem serve_index {t : ImportTable} (h : t.Distinct) (r : ImportRequest) :
    t.index.serve r = (t.serve r).index := by
  cases r with
  | add preferred path => exact congrArg Prod.snd (add_index h preferred path)
  | markUsed path => exact setUsed_index h path true
  | markUnused path => exact setUsed_index h path false

theorem serveAll_index {t : ImportTable} (h : t.Distinct) (requests : List ImportRequest) :
    t.index.serveAll requests = (t.serveAll requests).index := by
  induction requests generalizing t with
  | nil => rfl
  | cons r rs ih =>
      rw [ImportIndex.serveAll, List.foldl_cons, serve_index h]
      exact ih (h.serve r)

end ImportTable

open ImportTable NameTable in
/-- **An import table is in order after any requests.** Every registered path is listed once, in
the order in which the paths were registered first, and no two have the same alias; the aliases
are those of a name table that was asked for the same names. A path gets its alias when it is first
registered, the preferred one with the least number of underscores that is not taken by then, and
keeps it whatever comes later. An import is in use exactly if the last request for its path was not
to mark it unused. The imports in use and those not in use are the imports, in the same order, with
none lost and none in both. Marking a path that is not registered changes nothing. An index that is
asked for the same keeps the same imports, and beside them their aliases, in step. -/
theorem imports_in_order (requests : List ImportRequest) :
    let t := ImportTable.empty.serveAll requests
    t.imports.map Import.path = (requests.filterMap ImportRequest.registered?).eraseDups ∧
      t.Distinct ∧
      t.aliases = NameTable.empty.serveAll (requests.filterMap ImportRequest.nameRequest?) ∧
      (∀ before preferred path later, requests = before ++ .add preferred path :: later →
        path ∉ before.filterMap ImportRequest.registered? →
        let taken := (ImportTable.empty.serveAll before).imports.map Import.name
        ∃ n, underscored n preferred ∉ taken ∧ (∀ j < n, underscored j preferred ∈ taken) ∧
          t.alias? path = some (underscored n preferred)) ∧
      (∀ later path name, t.alias? path = some name →
        (t.serveAll later).alias? path = some name) ∧
      (∀ i ∈ t.imports, i.used = ImportRequest.lastUses requests i.path) ∧
      (∀ path, t.isUsed path = ((t.alias? path).isSome &&
        ImportRequest.lastUses requests path)) ∧
      (t.used.Sublist t.imports ∧ t.unused.Sublist t.imports ∧
        (t.used ++ t.unused).Perm t.imports ∧
        ∀ i ∈ t.imports, (i ∈ t.used ↔ i.used = true) ∧ (i ∈ t.unused ↔ i.used = false)) ∧
      (∀ path, path ∉ requests.filterMap ImportRequest.registered? →
        t.markUsed path = t ∧ t.markUnused path = t) ∧
      let x := ImportIndex.empty.serveAll requests
      x = t.index ∧ x.aliases.InStep ∧
        ∀ path, x.aliases.byKey.get? path = (x.imports.get? path).map Import.name := by
  intro t
  refine ⟨paths_serveAll requests, distinct_empty.serveAll requests,
    aliases_serveAll ImportTable.empty requests, ?_, ?_, used_serveAll requests,
    isUsed_serveAll requests, ?_, ?_, ?_⟩
  · rintro before preferred path later heq hfirst
    show ∃ n, _ ∧ _ ∧ (ImportTable.empty.serveAll requests).alias? path = _
    rw [heq]
    exact alias?_of_first hfirst preferred later
  · intro later path name halias
    exact alias?_serveAll halias later
  · refine ⟨List.filter_sublist, List.filter_sublist,
      List.filter_append_perm Import.used t.imports, fun i hi => ?_⟩
    simp [used, unused, hi]
  · intro path hpath
    have hnone := (alias?_serveAll_eq_none_iff requests path).mpr hpath
    exact ⟨setUsed_of_alias?_eq_none hnone true, setUsed_of_alias?_eq_none hnone false⟩
  · have hindex : ImportIndex.empty.serveAll requests = t.index :=
      serveAll_index distinct_empty requests
    have haliases : t.aliases.index =
        NameIndex.empty.serveAll (requests.filterMap ImportRequest.nameRequest?) := by
      rw [show t.aliases = _ from aliases_serveAll ImportTable.empty requests,
        ← NameTable.serveAll_index]
      rfl
    refine ⟨hindex, ?_, fun path => ?_⟩
    · rw [hindex, show t.index.aliases = t.aliases.index from rfl, haliases]
      exact NameIndex.inStep_empty.serveAll _
    · rw [hindex, get?_imports_index]
      exact t.nameOf?_aliases path

open ImportTable in
/-- Two paths compete for an alias that a third has taken with an underscore: the second goes on to
two underscores and keeps them, and is not in use after it was marked so. -/
theorem imports_in_order_base :
    let requests : List ImportRequest := [.add "base_" "c/base_", .add "base" "a/base",
      .markUsed "d/base", .add "base" "b/base", .markUnused "b/base", .add "other" "a/base"]
    let t := ImportTable.empty.serveAll requests
    t.imports.map Import.path = ["c/base_", "a/base", "b/base"] ∧
      (∃ n, (∀ j < n, NameTable.underscored j "base" ∈ ["base_", "base"]) ∧
        t.alias? "b/base" = some (NameTable.underscored n "base")) ∧
      (t.serveAll [.add "base" "b/base"]).alias? "b/base" = some "base__" ∧
      t.isUsed "a/base" = true ∧ t.isUsed "b/base" = false ∧ t.markUsed "d/base" = t := by
  intro requests t
  obtain ⟨hpaths, -, -, hfirst, hlater, -, hused, -, hunknown, -⟩ := imports_in_order requests
  have halias : t.alias? "b/base" = some "base__" := by decide
  obtain ⟨n, -, hleast, hn⟩ := hfirst [.add "base_" "c/base_", .add "base" "a/base",
    .markUsed "d/base"] "base" "b/base" _ rfl (by decide)
  refine ⟨hpaths.trans (by decide), ⟨n, hleast, hn⟩, hlater _ _ _ halias,
    (hused _).trans (by decide), (hused _).trans (by decide), (hunknown "d/base" (by decide)).1⟩

end IdlScope

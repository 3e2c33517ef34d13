import IdlScope.Proofs.Aliases

/-!
# Paths — where a relative import path leads

Without a prefix, the import path of a module is written relative to the importing one, in one of
three ways: down from the root, across to a neighbour below a common parent, or up to the root
and down again. Whoever reads the path has only its components to go by.

* **`Path.walk`** — reading: a dot stays, two dots go up one directory, everything else goes down.
* **`Path.walk_relativePath`** — from the directory of the importing namespace every relative path
  leads to the segments of the other one, and no step on the way goes above the root.
* **`import_leads_to_module`** — so an import leads to the module that it is for, and one path
  written in one file is the path to one package.
-/

namespace IdlScope

namespace Path

/-- The directory behind one component, unless it is above the root. -/
def enter (dir : List String) (component : String) : Option (List String) :=
  if component = "." then some dir
  else if component = ".." then
    if dir = [] then none else some dir.dropLast
  else some (dir ++ [component])

/-- The directory that a path leads to from another one, unless it steps above the root. -/
def walk (dir : List String) (path : String) : Option (List String) :=
  (Text.split '/' path).foldlM enter dir

/-- The directory of a namespace: one level for each segment, and the root without a name. -/
def directoryOf (domain : String) : List String :=
  if domain = "" then [] else Text.split '.' domain

/-! ## Components of a path -/

/-- Segments of a text hold only characters of the text. -/
theorem mem_of_mem_split {sep c : Char} {text segment : String}
    (h : segment ∈ Text.split sep text) (hc : c ∈ segment.toList) : c ∈ text.toList := by
  obtain ⟨part, hpart, rfl⟩ := List.mem_map.mp h
  rw [String.toList_ofList] at hc
  have htext : [sep].intercalate (text.toList.splitOn sep) = text.toList :=
    List.intercalate_splitOn sep
  rw [← htext]
  generalize text.toList.splitOn sep = parts at hpart ⊢
  induction parts with
  | nil => exact absurd hpart List.not_mem_nil
  | cons first rest ih =>
      cases rest with
      | nil =>
          obtain rfl := List.mem_singleton.mp hpart
          simpa using hc
      | cons second rest =>
          rw [List.intercalate_cons_cons, List.mem_append, List.mem_append]
          rcases List.mem_cons.mp hpart with rfl | hrest
          · exact .inl (.inl hc)
          · exact .inr (ih hrest)

/-- Components without slashes are what a path that is made from them is cut into. -/
theorem split_intercalate {parts : List String} (hne : parts ≠ [])
    (h : ∀ part ∈ parts, '/' ∉ part.toList) : Text.split '/' ("/".intercalate parts) = parts := by
  have hparts : ∀ cs ∈ parts.map String.toList, '/' ∉ cs := by
    intro cs hcs
    obtain ⟨part, hpart, rfl⟩ := List.mem_map.mp hcs
    exact h part hpart
  have hcut := List.splitOn_intercalate '/' hparts (by simpa using hne)
  rw [Text.split, String.toList_intercalate]
  show (List.splitOn '/' (['/'].intercalate (parts.map String.toList))).map String.ofList = parts
  rw [hcut, List.map_map]
  have hback : String.ofList ∘ String.toList = id := funext fun _ => String.ofList_toList
  rw [hback, List.map_id]

theorem walk_intercalate (dir : List String) {parts : List String} (hne : parts ≠ [])
    (h : ∀ part ∈ parts, '/' ∉ part.toList) :
    walk dir ("/".intercalate parts) = parts.foldlM enter dir := by
  rw [walk, split_intercalate hne h]

/-! ## Going down and up -/

/-- What holds no dot is neither of the two components that are read in a way of their own. -/
theorem enter_segment (dir : List String) {segment : String} (h : '.' ∉ segment.toList) :
    enter dir segment = some (dir ++ [segment]) := by
  have hstay : segment ≠ "." := by
    rintro rfl
    exact h (by decide)
  have hup : segment ≠ ".." := by
    rintro rfl
    exact h (by decide)
  rw [enter, if_neg hstay, if_neg hup]

/-- Segments lead down, one after the other. -/
theorem descend (dir : List String) {segments : List String}
    (h : ∀ segment ∈ segments, '.' ∉ segment.toList) :
    segments.foldlM enter dir = some (dir ++ segments) := by
  induction segments generalizing dir with
  | nil => simp
  | cons first rest ih =>
      rw [List.foldlM_cons, enter_segment dir (h first List.mem_cons_self)]
      show rest.foldlM enter (dir ++ [first]) = some (dir ++ first :: rest)
      rw [ih _ fun segment hsegment => h segment (List.mem_cons_of_mem _ hsegment),
        List.append_assoc, List.singleton_append]

/-- Two dots lead out of the last level. -/
theorem enter_up (dir : List String) (last : String) : enter (dir ++ [last]) ".." = some dir := by
  rw [enter, if_neg (by decide), if_pos rfl, if_neg (by simp), List.dropLast_concat]

/-- As many steps up as a directory has levels lead to the root and not above it. -/
theorem climb (dir : List String) : (dir.map fun _ => "..").foldlM enter dir = some [] := by
  induction dir using List.reverseRecOn with
  | nil => rfl
  | append_singleton dir last ih =>
      -- the steps are all alike, so the last of them may be taken first
      have hsteps : ((dir ++ [last]).map fun _ => "..") = ".." :: dir.map fun _ => ".." := by
        simp only [List.map_const', List.length_append, List.length_singleton, List.replicate_succ]
      rw [hsteps, List.foldlM_cons, enter_up]
      exact ih

/-! ## Relative paths -/

/-- From the root, the path goes down to the segments. -/
theorem walk_down {goal : List String} (hne : goal ≠ [])
    (hdot : ∀ segment ∈ goal, '.' ∉ segment.toList)
    (hslash : ∀ segment ∈ goal, '/' ∉ segment.toList) :
    walk [] ("./" ++ "/".intercalate goal) = some goal := by
  have hpath : "./" ++ "/".intercalate goal = "/".intercalate ("." :: goal) := by
    rw [intercalate_cons_of_ne_nil "." hne]
    rfl
  rw [hpath, walk_intercalate [] (List.cons_ne_nil _ _)
    (List.forall_mem_cons.mpr ⟨by decide, hslash⟩), List.foldlM_cons]
  exact descend [] hdot

/-- A neighbour is one step up and one step down. -/
theorem walk_across (dir : List String) (last : String) {segment : String}
    (hdot : '.' ∉ segment.toList) (hslash : '/' ∉ segment.toList) :
    walk (dir ++ [last]) ("../" ++ segment) = some (dir ++ [segment]) := by
  have hpath : "../" ++ segment = "/".intercalate ["..", segment] := by
    rw [intercalate_cons_of_ne_nil ".." (List.cons_ne_nil _ _), String.intercalate_singleton]
    rfl
  have hparts : ∀ part ∈ ["..", segment], '/' ∉ part.toList :=
    List.forall_mem_cons.mpr ⟨by decide, List.forall_mem_singleton.mpr hslash⟩
  rw [hpath, walk_intercalate _ (List.cons_ne_nil _ _) hparts, List.foldlM_cons, enter_up]
  exact descend dir (List.forall_mem_singleton.mpr hdot)

/-- Every other path goes up to the root first. -/
theorem walk_around (here : List String) {goal : List String} (hne : goal ≠ [])
    (hdot : ∀ segment ∈ goal, '.' ∉ segment.toList)
    (hslash : ∀ segment ∈ goal, '/' ∉ segment.toList) :
    walk here ("/".intercalate (here.map (fun _ => "..") ++ goal)) = some goal := by
  have hparts : ∀ part ∈ here.map (fun _ => "..") ++ goal, '/' ∉ part.toList := by
    refine List.forall_mem_append.mpr ⟨?_, hslash⟩
    intro part hpart
    obtain ⟨_, -, rfl⟩ := List.mem_map.mp hpart
    decide
  rw [walk_intercalate _ (List.append_ne_nil_of_right_ne_nil _ hne) hparts, List.foldlM_append,
    climb]
  exact descend [] hdot

/-- **A relative path leads to the segments of its target**, in each of its forms. -/
theorem walk_relativePath (source : String) {target : String} (htarget : '/' ∉ target.toList) :
    walk (directoryOf source) (relativePath source target) = some (Text.split '.' target) := by
  have hne := Text.split_ne_nil '.' target
  have hdot : ∀ segment ∈ Text.split '.' target, '.' ∉ segment.toList :=
    fun _ h => dot_not_mem_segment h
  have hslash : ∀ segment ∈ Text.split '.' target, '/' ∉ segment.toList :=
    fun _ h hc => htarget (mem_of_mem_split h hc)
  rw [relativePath, directoryOf]
  dsimp only
  generalize Text.split '.' target = goal at hne hdot hslash ⊢
  by_cases hsource : source = ""
  · rw [if_pos hsource, if_pos hsource]
    exact walk_down hne hdot hslash
  · rw [if_neg hsource, if_neg hsource]
    have hhere := Text.split_ne_nil '.' source
    generalize Text.split '.' source = here at hhere ⊢
    split
    · next hnear =>
      -- neighbours have one parent, and differ in the last segment only
      have hlast := List.getLast_mem hne
      rw [List.getLast?_eq_some_getLast hne, Option.getD_some,
        ← List.dropLast_append_getLast hhere, walk_across _ _ (hdot _ hlast) (hslash _ hlast),
        hnear.2, List.dropLast_append_getLast hne]
    · exact walk_around here hne hdot hslash

end Path

/-! ## Imports -/

/-- **Imports lead to their modules.** Where no prefix is configured, the path that a module of one
file is given for that of another leads, component by component and never above the root, from
the directory of the first namespace exactly to the segments of the second, if this one holds
no slash. So only packages with one path are imported by one path from one file. -/
theorem import_leads_to_module (source target : Document)
    (htarget : '/' ∉ (Language.typescript.package target "").domain.toList) :
    let here := Language.typescript.package source ""
    let goal := Language.typescript.package target ""
    Path.walk (Path.directoryOf here.domain) (Language.typescript.importPath here goal) =
        some (Text.split '.' goal.domain) ∧
      ∀ other : Document, Language.typescript.importPath here goal =
          Language.typescript.importPath here (Language.typescript.package other "") →
        goal.path = (Language.typescript.package other "").path := by
  intro here goal
  refine ⟨?_, fun other => Language.importPath_inj .typescript here target other ""⟩
  have hrelative : Text.startsWith "./" goal.path = true := by
    show Text.startsWith "./" ("./" ++ domainPath goal.domain) = true
    simp [Text.startsWith, List.isPrefixOf]
  rw [Language.importPath, if_pos hrelative]
  exact Path.walk_relativePath here.domain htarget

namespace Sample

/-- A file with a namespace for TypeScript. -/
def tsModule (domain : String) : Document :=
  { Document.empty "x.thrift" with namespaces := [⟨"ts", domain⟩] }

end Sample

/-- Between modules with no common parent, the path goes over the root. -/
theorem import_leads_to_module_apart :
    '/' ∉ (Language.typescript.package (Sample.tsModule "common.base") "").domain.toList ∧
      Language.typescript.importPath (Language.typescript.package (Sample.tsModule "api.user") "")
          (Language.typescript.package (Sample.tsModule "common.base") "") =
        "../../common/base" ∧
      Path.walk ["api", "user"] "../../common/base" = some ["common", "base"] := by
  have htarget :
      '/' ∉ (Language.typescript.package (Sample.tsModule "common.base") "").domain.toList := by
    decide
  have hpath :
      Language.typescript.importPath (Language.typescript.package (Sample.tsModule "api.user") "")
          (Language.typescript.package (Sample.tsModule "common.base") "") =
        "../../common/base" := by
    decide +kernel
  have hwalk := (import_leads_to_module (Sample.tsModule "api.user") (Sample.tsModule "common.base")
    htarget).1
  rw [hpath] at hwalk
  exact ⟨htarget, hpath, hwalk⟩

end IdlScope

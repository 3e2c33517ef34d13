import IdlScope.Proofs.Linkages

/-!
# Include tables — what stands at which place, at every point of finishing

References of a source count its includes, and while types are written, files that turn out to be
needed are appended to the same table. So what is appended must never move or repeat what is
there:

* **`Linkage.Placed`** — every include of the source has its own place, what comes behind is of
  another package and has an import path of its own, and aliases and imports fit the includes.
* **`Linkage.Links.placed`** — linking the includes of a file comes to such a table.
* **`Linkage.Placed.qualifierOf`**, **`Linkage.Placed.prune`** — finishing keeps it, whatever is
  asked for.
* **`includes_placed`** — so every file of a run has such a table, and had one at every point.
-/

namespace IdlScope

/-- What may stand at the place of an include: nothing if and only if the source never uses it,
and otherwise an include that describes the scope of its file. -/
structure Included.Stands (g : Language) (l : Library) (own : Package) (i : Included Tree)
    (e : Option Include) : Prop where
  empty_iff : e = none ↔ i.used = false
  describes : ∀ j ∈ e, ∃ s, l.scope? i.content.filename = some s ∧ j.Describes g own s

/-- The table of includes of a file whose source has the includes `is`. -/
structure Linkage.Placed (g : Language) (l : Library) (is : List (Included Tree)) (k : Linkage) :
    Prop where
  /-- The includes of the source come first, each at its place. -/
  sources : List.Forall₂ (Included.Stands g l k.package) is (k.includes.take is.length)
  /-- What comes behind them is there, of another package, and describes a scope. -/
  appended : ∀ e ∈ k.includes.drop is.length, ∃ j ∈ e, j.samePackage = false ∧
    ∃ s, l.scope? j.file = some s ∧ j.Describes g k.package s
  /-- No include of another package in front of it has its path. -/
  apart : ∀ a b i j, a < b → is.length ≤ b → k.includes[a]? = some (some i) →
    k.includes[b]? = some (some j) → i.samePackage = false → i.path ≠ j.path
  /-- Includes of other packages have the aliases of their paths, and all imports are theirs. -/
  tidy : k.Tidy

namespace Linkage

variable {g : Language} {l m : Library} {is : List (Included Tree)} {k k' : Linkage}

/-! ## Linking -/

/-- Linking puts every include at its place. -/
theorem Links.sources (h : Links l g is k k') :
    ∃ es, k'.includes = k.includes ++ es ∧
      List.Forall₂ (Included.Stands g l k.package) is es := by
  induction h with
  | nil k => exact ⟨[], (List.append_nil _).symm, .nil⟩
  | @used path t is k k' s hs _ ih =>
      obtain ⟨i, hincludes, hi⟩ := includes_append g k s
      obtain ⟨es, hes, hstands⟩ := ih
      refine ⟨some i :: es, by rw [hes, hincludes, List.append_assoc]; rfl, .cons ?_ ?_⟩
      · refine ⟨iff_of_false (Option.some_ne_none i) (by simp), fun j hj => ?_⟩
        obtain rfl := Option.some.inj hj
        exact ⟨s, hs, hi⟩
      · rwa [← (le_append g s.document s.package k).1] at hstands
  | @unused path t is k k' _ ih =>
      obtain ⟨es, hes, hstands⟩ := ih
      refine ⟨none :: es, by rw [hes, skip, List.append_assoc]; rfl, .cons ?_ hstands⟩
      exact ⟨iff_of_true rfl rfl, fun j hj => absurd hj (Option.not_mem_none j)⟩

/-- Linking the includes of a file, from none, comes to its table. -/
theorem Links.placed (h : Links l g is k k') (hk : k.includes = []) (htidy : k.Tidy) :
    k'.Placed g l is := by
  obtain ⟨es, hes, hstands⟩ := h.sources
  rw [hk, List.nil_append] at hes
  have hlength : is.length = k'.includes.length := hes ▸ hstands.length_eq
  refine ⟨?_, ?_, ?_, h.tidy htidy⟩
  · rwa [hlength, List.take_length, hes, ← h.le.1]
  · rw [hlength, List.drop_length]
    exact fun e he => absurd he List.not_mem_nil
  · intro a b i j _ hb _ hj
    rw [List.getElem?_eq_none (hlength ▸ hb)] at hj
    cases hj

/-! ## Finishing -/

namespace Placed

variable (h : k.Placed g l is)
include h

theorem length_le : is.length ≤ k.includes.length := by
  have hlength := h.sources.length_eq
  rw [List.length_take] at hlength
  omega

/-- Marks of imports do not matter. -/
theorem setImports {imports : ImportTable} (htidy : Tidy { k with imports := imports }) :
    Placed g l is { k with imports := imports } :=
  ⟨h.sources, h.appended, h.apart, htidy⟩

/-- A file of another package may be appended if its path has no alias yet. -/
theorem append {file : String} {s : Scope} (hs : l.scope? file = some s)
    (hother : s.package.path ≠ k.package.path)
    (hfree : k.imports.alias? (g.importPath k.package s.package) = none) :
    (k.append g s.document s.package).2.Placed g l is := by
  obtain ⟨i, hincludes, hi⟩ := includes_append g k s
  have hpackage := (le_append g s.document s.package k).1
  have hfound : l.scope? i.file = some s := by
    rw [hi.file, Library.filename_of_scope? hs]
    exact hs
  have hsame : i.samePackage = false :=
    Bool.eq_false_iff.mpr fun hsame => hother (hi.samePackage.mp hsame)
  have hlength := h.length_le
  refine ⟨?_, ?_, ?_, h.tidy.append g s.document s.package⟩
  · rw [hincludes, List.take_append_of_le_length hlength, ← hpackage]
    exact h.sources
  · rw [hincludes, List.drop_append_of_le_length hlength, ← hpackage]
    refine List.forall_mem_append.mpr ⟨h.appended, List.forall_mem_singleton.mpr ?_⟩
    exact ⟨i, rfl, hsame, s, hfound, hi⟩
  · -- an include with the path would have its alias, and the path has none
    have hpath : ∀ j ∈ k.present, j.samePackage = false → j.path ≠ i.path := by
      intro j hj hjsame hjpath
      have halias := h.tidy.alias_of_include j hj hjsame
      rw [hjpath, hi.path, hfree] at halias
      cases halias
    intro a b j j' hab hb hj hj' hjsame
    have hbound : b < k.includes.length + 1 := by
      have := (List.getElem?_eq_some_iff.mp hj').1
      rwa [hincludes, List.length_append] at this
    rw [hincludes, List.getElem?_append_left (by omega)] at hj
    rcases Nat.lt_succ_iff_lt_or_eq.mp hbound with hold | rfl
    · rw [hincludes, List.getElem?_append_left hold] at hj'
      exact h.apart a b j j' hab hb hj hj' hjsame
    · rw [hincludes, List.getElem?_concat_length] at hj'
      obtain rfl := Option.some.inj (Option.some.inj hj')
      refine hpath j ?_ hjsame
      exact List.mem_filterMap.mpr ⟨some j, List.mem_of_getElem? hj, rfl⟩

/-- Asking for the qualifier of any home keeps the table. -/
theorem qualifierOf (home : Home) : ((RenderEnv.mk g l).qualifierOf k home).2.Placed g l is := by
  have htidy := RenderEnv.tidy_qualifierOf (e := ⟨g, l⟩) h.tidy home
  unfold RenderEnv.qualifierOf at htidy ⊢
  cases home with
  | here => exact h
  | foreign file =>
      dsimp only at htidy ⊢
      split
      · exact h
      · next s hs =>
        rw [hs] at htidy
        dsimp only at htidy
        rcases qualifierFor_cases g s.document s.package k with hcase | hcase | ⟨hp, halias, hcase⟩
          <;> rw [hcase] at htidy ⊢
        · exact h
        · exact h.setImports htidy
        · exact h.append hs hp halias

theorem prune (mentioned : List String) : (k.prune mentioned).Placed g l is :=
  h.setImports (h.tidy.prune mentioned)

theorem reaches (hreaches : k.Reaches ⟨g, l⟩ k') : k'.Placed g l is := by
  induction hreaches with
  | refl => exact h
  | ask _ home ih => exact ih.qualifierOf home
  | prune _ mentioned ih => exact ih.prune mentioned

/-- In a larger library the table is still one. -/
theorem mono (hle : l ≤ m) : k.Placed g m is where
  sources := h.sources.imp fun i e hstands => ⟨hstands.empty_iff, fun j hj => by
    obtain ⟨s, hs, hdescribes⟩ := hstands.describes j hj
    exact ⟨s, hle _ _ hs, hdescribes⟩⟩
  appended := fun e he => by
    obtain ⟨j, hj, hsame, s, hs, hdescribes⟩ := h.appended e he
    exact ⟨j, hj, hsame, s, hle _ _ hs, hdescribes⟩
  apart := h.apart
  tidy := h.tidy

end Placed

end Linkage

/-! ## Every file of a run -/

/-- Building the includes of a file comes to its table, on any library. -/
theorem placed_buildIncludes {o : Options} {d : Document} {waiting : List String}
    {is : List (Included Tree)} {l m : Library} {k : Linkage}
    (h : (buildIncludes o d waiting is (o.unlinked d)).run.run l = (.ok k, m)) :
    k.Placed o.language m is :=
  (links_of_buildIncludes h).2.placed rfl (Linkage.tidy_new _)

/-- **Include tables.** Once the includes of a file are built, its source includes stand at their
places, and nothing that finishing appends moves or repeats them: building includes comes to such
a table on any library; it stays one whatever qualifiers are asked for and whatever is pruned, and
that is all that resolving fields, typedefs, constants, bases of services and functions does; and
so the table of every file of a run was one at every point, and still is. -/
theorem includes_placed (o : Options) :
    (∀ d waiting is l m k,
      (buildIncludes o d waiting is (o.unlinked d)).run.run l = (.ok k, m) →
        k.Placed o.language m is) ∧
    (∀ l is k, k.Placed o.language l is →
      (∀ home, ((RenderEnv.mk o.language l).qualifierOf k home).2.Placed o.language l is) ∧
      (∀ k', k.Reaches ⟨o.language, l⟩ k' → k'.Placed o.language l is)) ∧
    (∀ l r own resolved done found k k' k₁ k₂ k₃ k₄,
      Roster.Finishes r ⟨o.language, l⟩ own resolved k done k' found k₁ k₂ k₃ k₄ →
        ∀ j ∈ [k₁, k₂, k₃, k₄, k'], k.Reaches ⟨o.language, l⟩ j) ∧
    ∀ requests file s, ((Run.new o).serveAll requests).library.scope? file = some s →
      ∃ t l k, t.Among (requests.flatMap Request.trees) ∧ s.document = t.document ∧
        l ≤ ((Run.new o).serveAll requests).library ∧ s.Built o t l k ∧
        k.Placed o.language l t.includes ∧ k.Reaches ⟨o.language, l⟩ s.linkage ∧
        s.linkage.Placed o.language ((Run.new o).serveAll requests).library t.includes := by
  refine ⟨fun d waiting is l m k => placed_buildIncludes, fun l is k h => ?_, ?_, ?_⟩
  · exact ⟨h.qualifierOf, fun k' => h.reaches⟩
  · intro l r own resolved done found k k' k₁ k₂ k₃ k₄ h
    obtain ⟨h₁, h₂, h₃, h₄, h₅⟩ := h.reaches_stages
    simp only [List.forall_mem_cons]
    exact ⟨h₁, h₂, h₃, h₄, h₅, fun _ hj => absurd hj List.not_mem_nil⟩
  · intro requests file s hs
    obtain ⟨t, l, k, ht, hle, hbuilt⟩ := (Run.sound_serveAll o requests).built file s hs
    have hplaced := hbuilt.links.placed rfl (Linkage.tidy_new _)
    exact ⟨t, l, k, ht, Document.document_of_scope hbuilt.scope, hle, hbuilt, hplaced,
      hbuilt.reaches, (hplaced.reaches hbuilt.reaches).mono hle⟩

namespace Sample

/-- A tool of a color; fields that refer to it expand. -/
def tools : Tree where
  document := { Document.empty "tools.thrift" with
    structs := [⟨"struct", "Tool",
      [⟨1, "color", .default, .named "base.Color" .enum, none, []⟩], [], some true⟩] }
  includes := [⟨"base.thrift", true, base⟩]

/-- A shed with a tool, which includes the file of the color but never uses it. -/
def shed : Tree where
  document := { Document.empty "shed.thrift" with
    structs := [⟨"struct", "Shed",
      [⟨1, "tool", .default, .named "tools.Tool" .struct, none, []⟩], [], none⟩] }
  includes := [⟨"base.thrift", false, base⟩, ⟨"tools.thrift", true, tools⟩]

/-- The library of a run that has built the shed. -/
def stocked : Library := ((Run.new {}).serveAll [.build shed]).library

end Sample

set_option maxRecDepth 100000 in
/-- The place of the include that is not used stays empty, and the file is appended behind. -/
theorem includes_placed_shed : ∃ s, ∃ t : Tree, Sample.stocked.scope? "shed.thrift" = some s ∧
    s.linkage.includes.map (Option.map Include.file) =
      [none, some "tools.thrift", some "base.thrift"] ∧ t.Among [Sample.shed] ∧
    s.document = t.document ∧ s.linkage.Placed .go Sample.stocked t.includes := by
  have hfound : (Sample.stocked.scope? "shed.thrift").any (fun s =>
      s.linkage.includes.map (Option.map Include.file) ==
        [none, some "tools.thrift", some "base.thrift"]) = true := by
    decide +kernel
  obtain ⟨s, hs, hfound⟩ := (Option.any_eq_true _ _).mp hfound
  obtain ⟨-, -, -, hruns⟩ := includes_placed {}
  obtain ⟨t, l, k, ht, hdocument, -, -, -, -, hplaced⟩ := hruns [.build Sample.shed] _ s hs
  exact ⟨s, t, hs, beq_iff_eq.mp hfound, ht, hdocument, hplaced⟩

end IdlScope

import IdlScope.Proofs.Aliases
import IdlScope.Proofs.Texts

/-!
# Identity — a type text tells its declaration

The text of a declared type is the name that was allocated for it, perhaps behind a qualifier and
a dot, perhaps behind a star. Names and aliases hold neither of the two marks, aliases belong to
one package each, and both stay as they are while a file is built. So a text that two types share
tells one package and one name:

* **`Library.OnePackage`** — homes are in one package, and reached in one way if they are imported.
* **`eq_iff_onePackage`** — homes have one qualifier exactly if they are.
* **`Language.declaredType_eq_iff`** — the text tells qualifier, name and star.
* **`rendered_alike`** — types are rendered alike at any two times exactly if they are called the
  same in one package, and both are behind a pointer or neither is.
* **`rendered_alike_inside`** — types of different files may be, if the files share a package.
-/

namespace IdlScope

/-! ## Qualifiers and packages -/

/-- The package that a home is in, seen from a scope. -/
def Library.packageOf (l : Library) (s : Scope) : Home → Package
  | .here => s.package
  | .foreign file => ((l.scope? file).map Scope.package).getD s.package

theorem Library.packageOf_foreign {l : Library} {file : String} {u : Scope}
    (h : l.scope? file = some u) (s : Scope) : l.packageOf s (.foreign file) = u.package := by
  rw [packageOf, h]
  rfl

/-- What holds of all aliases holds of a qualifier. -/
theorem Linkage.Qualifies.of_aliases {k : Linkage} {g : Language} {l : Library} {home : Home}
    {q : Option String} (h : k.Qualifies g l home q) (hk : k.Tidy) {Q : String → Prop}
    (haliases : ∀ i ∈ k.imports.imports, Q i.name) : ∀ a ∈ q, Q a := by
  cases h with
  | here | inside => exact fun a ha => by cases ha
  | imported hs hpath hname =>
      obtain ⟨i, hi, -, rfl⟩ := (ImportTable.alias?_eq_some hk.distinct).mp hname
      rintro a ⟨⟩
      exact haliases i hi

/-- A qualifier is plain where aliases are. -/
theorem Linkage.Qualifies.plain {k : Linkage} {g : Language} {l : Library} {home : Home}
    {q : Option String} (h : k.Qualifies g l home q) (hk : k.Tidy) (haliases : k.PlainAliases) :
    ∀ a ∈ q, Naming.Plain a :=
  h.of_aliases hk haliases

/-- The homes are in one package. If it is not the package of the scope, they are imported by one
path as well. -/
def Library.OnePackage (g : Language) (l : Library) (s : Scope) (home home' : Home) : Prop :=
  (l.packageOf s home).path = (l.packageOf s home').path ∧
    ((l.packageOf s home).path = s.package.path ∨
      g.importPath s.package (l.packageOf s home) = g.importPath s.package (l.packageOf s home'))

/-- What is not qualified is in the package of the scope. -/
theorem Linkage.Qualifies.path_eq {s : Scope} {g : Language} {l : Library} {home : Home}
    (h : s.linkage.Qualifies g l home none) : (l.packageOf s home).path = s.package.path := by
  cases h with
  | here => rfl
  | inside hu hpath => rw [Library.packageOf_foreign hu, hpath, Scope.package]

/-- **Homes with one qualifier are those in one package.** -/
theorem eq_iff_onePackage {o : Options} {l : Library} (hl : l.Packaged o) {s : Scope}
    (hs : s.linkage.Tidy) {home home' : Home} {q q' : Option String}
    (h : s.linkage.Qualifies o.language l home q) (h' : s.linkage.Qualifies o.language l home' q') :
    q = q' ↔ l.OnePackage o.language s home home' := by
  constructor
  · rintro rfl
    cases q with
    | none => exact ⟨h.path_eq.trans h'.path_eq.symm, .inl h.path_eq⟩
    | some a =>
        cases h with
        | imported hu _ hname =>
            cases h' with
            | imported hv _ hname' =>
                -- the alias belongs to one import, which has one path
                obtain ⟨i, hi, hpath, hi'⟩ := (ImportTable.alias?_eq_some hs.distinct).mp hname
                obtain ⟨j, hj, hpath', hj'⟩ := (ImportTable.alias?_eq_some hs.distinct).mp hname'
                obtain rfl := hs.distinct.eq_of_name hi hj (hi'.trans hj'.symm)
                have himport := hpath.symm.trans hpath'
                rw [Library.OnePackage, Library.packageOf_foreign hu, Library.packageOf_foreign hv]
                refine ⟨?_, .inr himport⟩
                rw [hl _ _ hu, hl _ _ hv] at himport ⊢
                exact o.language.importPath_inj _ _ _ _ himport
  · rintro ⟨hpath, himport⟩
    cases h with
    | here =>
        cases h' with
        | here | inside => rfl
        | imported hv hother =>
            rw [Library.packageOf_foreign hv] at hpath
            exact absurd hpath.symm hother
    | inside hu hown =>
        cases h' with
        | here | inside => rfl
        | imported hv hother =>
            rw [Library.packageOf_foreign hu, Library.packageOf_foreign hv, hown] at hpath
            exact absurd hpath.symm hother
    | imported hu hother hname =>
        cases h' with
        | here =>
            rw [Library.packageOf_foreign hu] at hpath
            exact absurd hpath hother
        | inside hv hown =>
            rw [Library.packageOf_foreign hu, Library.packageOf_foreign hv, hown] at hpath
            exact absurd hpath hother
        | imported hv _ hname' =>
            rw [Library.packageOf_foreign hu, Library.packageOf_foreign hv] at himport
            rw [show s.linkage.package = s.package from rfl, himport.resolve_left hother] at hname
            exact hname.symm.trans hname'

/-! ## Texts of declared types -/

section Texts

variable {q q' : Option String} {name name' : String}

theorem star_not_mem_qualify (hq : ∀ a ∈ q, Naming.Plain a) (hname : Naming.Plain name) :
    '*' ∉ (qualify q name).toList := by
  cases q with
  | none => exact hname.star
  | some a =>
      rw [qualify, String.toList_append, String.toList_append]
      intro h
      rcases List.mem_append.mp h with h | h
      · rcases List.mem_append.mp h with h | h
        · exact (hq a rfl).star h
        · exact absurd h (by decide)
      · exact hname.star h

/-- A qualified name tells its qualifier and the name. -/
theorem qualify_inj (hq : ∀ a ∈ q, Naming.Plain a) (hname : Naming.Plain name)
    (hname' : Naming.Plain name') (h : qualify q name = qualify q' name') :
    q = q' ∧ name = name' := by
  have hdot : ∀ a other : String, '.' ∈ (qualify (some a) other).toList := by
    intro a other
    rw [qualify, String.toList_append, String.toList_append]
    exact List.mem_append_left _ (List.mem_append_right _ (List.mem_singleton_self _))
  cases q with
  | none =>
      cases q' with
      | none => exact ⟨rfl, h⟩
      | some a' =>
          refine absurd (hdot a' name') ?_
          rw [← h]
          exact hname.dot
  | some a =>
      cases q' with
      | none =>
          refine absurd (hdot a name) ?_
          rw [h]
          exact hname'.dot
      | some a' =>
          have hchars := congrArg String.toList h
          simp only [qualify, String.toList_append, List.append_assoc] at hchars
          rw [show ".".toList = ['.'] from rfl, List.singleton_append, List.singleton_append,
            List.append_cons_inj_of_notMem (hq a rfl).dot hname.dot] at hchars
          obtain ⟨ha, -, hn⟩ := hchars
          rw [String.toList_inj.mp ha, String.toList_inj.mp hn]
          exact ⟨rfl, rfl⟩

theorem dropLeading_of_not_mem {c : Char} {s : String} (h : c ∉ s.toList) :
    Text.dropLeading c s = s := by
  rw [Text.dropLeading, ← String.toList_inj, String.toList_ofList]
  cases hs : s.toList with
  | nil => rfl
  | cons d ds =>
      have hd : (d == c) = false := by
        refine beq_eq_false_iff_ne.mpr ?_
        rintro rfl
        exact h (hs ▸ List.mem_cons_self)
      rw [List.dropWhile_cons, if_neg (Bool.eq_false_iff.mp hd)]

theorem Language.declaredType_go (c : Category) : Language.go.declaredType q name c =
    if c.isStructLike then "*" ++ qualify q name else qualify q name := by
  cases q <;> rfl

/-- Without the star of a pointer, a declared type is written as its qualified name. -/
theorem Language.aliasType_declaredType {g : Language} (hg : g ≠ .openApi)
    (hq : ∀ a ∈ q, Naming.Plain a) (hname : Naming.Plain name) (c : Category) :
    g.aliasType (g.declaredType q name c) = qualify q name := by
  have hstar := star_not_mem_qualify hq hname
  cases g with
  | go =>
      rw [declaredType_go]
      split
      · rw [aliasType, Text.dropLeading, String.toList_append, show "*".toList = ['*'] from rfl,
          List.singleton_append, List.dropWhile_cons, if_pos (beq_self_eq_true '*')]
        exact dropLeading_of_not_mem hstar
      · exact dropLeading_of_not_mem hstar
  | typescript => cases q <;> rfl
  | openApi => exact absurd rfl hg

/-- **A type text tells qualifier and name**, even without the star of a pointer. -/
theorem Language.aliasType_eq_iff {g : Language} (hg : g ≠ .openApi)
    (hq : ∀ a ∈ q, Naming.Plain a) (hname : Naming.Plain name)
    (hq' : ∀ a ∈ q', Naming.Plain a) (hname' : Naming.Plain name') (c c' : Category) :
    g.aliasType (g.declaredType q name c) = g.aliasType (g.declaredType q' name' c') ↔
      q = q' ∧ name = name' := by
  rw [aliasType_declaredType hg hq hname, aliasType_declaredType hg hq' hname']
  exact ⟨qualify_inj hq hname hname', fun ⟨hsame, hsame'⟩ => by rw [hsame, hsame']⟩

/-- The whole text tells in addition, in the language with pointers, whether there is a star. -/
theorem Language.declaredType_eq_iff {g : Language} (hg : g ≠ .openApi)
    (hq : ∀ a ∈ q, Naming.Plain a) (hname : Naming.Plain name)
    (hq' : ∀ a ∈ q', Naming.Plain a) (hname' : Naming.Plain name') (c c' : Category) :
    g.declaredType q name c = g.declaredType q' name' c' ↔
      (q = q' ∧ name = name') ∧ (g = .go → c.isStructLike = c'.isStructLike) := by
  have hstar : ∀ other : String, '*' ∈ ("*" ++ other).toList := by
    intro other
    rw [String.toList_append]
    exact List.mem_append_left _ (List.mem_singleton_self _)
  constructor
  · intro heq
    refine ⟨(aliasType_eq_iff hg hq hname hq' hname' c c').mp (congrArg g.aliasType heq), ?_⟩
    rintro rfl
    rw [declaredType_go, declaredType_go] at heq
    -- what is not behind a pointer has no star at all
    have hplain := star_not_mem_qualify hq hname
    have hplain' := star_not_mem_qualify hq' hname'
    cases hc : c.isStructLike <;> cases hc' : c'.isStructLike <;>
      simp only [hc, hc', Bool.false_eq_true, if_true, if_false] at heq ⊢
    · exact absurd (heq ▸ hstar _) hplain
    · exact absurd (heq ▸ hstar _) hplain'
  · rintro ⟨⟨rfl, rfl⟩, hpointers⟩
    cases g with
    | go => rw [declaredType_go, declaredType_go, hpointers rfl]
    | typescript => rfl
    | openApi => exact absurd rfl hg

end Texts

/-! ## Types that are rendered into a file -/

/-- Some place that the file can see has found the type, and it was rendered into the file at a
time before the file was finished. -/
structure Scope.Renders (s : Scope) (g : Language) (l : Library) (d : Located) (text : String) :
    Prop where
  located : ∃ is p t owner, l.Sees (s.within is) p ∧ l.locate p t owner = .ok d
  rendered : ∃ k, (RenderEnv.type ⟨g, l⟩ d.toType k).2 ≤ s.linkage ∧
    (RenderEnv.type ⟨g, l⟩ d.toType k).1.text = text

/-- The place is at a home of the library, and what it declares is called by identifiers. -/
structure Place.Spelled (l : Library) (p : Place) : Prop where
  home : l.Holds p.home
  declared : ∀ source d, p.directory.declared.get? source = some d →
    Naming.isIdentifier d.name = true

section Rendered

variable {o : Options} {P : Tree → Prop} {l : Library} (hl : l.Sound o P) {file : String}
  {s : Scope} (hs : l.scope? file = some s)
include hl

theorem Library.Sound.spelled_of_sees {p q : Place} (hp : p.Spelled l) (hq : l.Sees p q) :
    q.Spelled l := by
  rcases hq with rfl | ⟨file, hfile⟩
  · exact hp
  · obtain ⟨u, hu, rfl⟩ := Option.map_eq_some_iff.mp hfile
    obtain ⟨t, m, k, -, -, hbuilt⟩ := hl.built file u hu
    obtain ⟨r, resolved, hcomes⟩ := hbuilt.comes
    refine ⟨⟨u, hu⟩, fun source d hd => ?_⟩
    have hd : u.declared.get? source = some d := hd
    rw [hcomes.declared] at hd
    exact Site.isIdentifier_declared hcomes.named hd

include hs

/-- A type that was found from the file is at a home of the library, under an identifier. -/
theorem Scope.Renders.spelled {g : Language} {d : Located} {text : String}
    (h : s.Renders g l d text) : l.Holds d.home ∧ Naming.isIdentifier d.name = true := by
  obtain ⟨is, p, t, owner, hp, hd⟩ := h.located
  obtain ⟨u, m, k, -, -, hbuilt⟩ := hl.built file s hs
  obtain ⟨r, resolved, hcomes⟩ := hbuilt.comes
  have hown : (s.within is).Spelled l := by
    refine ⟨trivial, fun source e he => ?_⟩
    have he : s.declared.get? source = some e := he
    rw [hcomes.declared] at he
    exact Site.isIdentifier_declared hcomes.named he
  obtain ⟨q, found, hq, hhome, hname⟩ := Library.locate_eq_ok hd
  obtain ⟨hreaches, key, hfound⟩ := Library.reaches_of_declaration? hq
  have hspelled := hl.spelled_of_sees (hl.spelled_of_sees hown hp) hreaches.sees
  rw [hhome, hname]
  exact ⟨hspelled.home, hspelled.declared key found hfound⟩

/-- Whenever a type was rendered, its text has the qualifier that the finished file has. -/
theorem Scope.Renders.qualified {d : Located} {text : String}
    (h : s.Renders o.language l d text) :
    ∃ q, s.linkage.Qualifies o.language l d.home q ∧
      text = o.language.declaredType q d.name d.underlying := by
  obtain ⟨k, hle, htext⟩ := h.rendered
  have hwrites := RenderEnv.writes_type ⟨o.language, l⟩ d.toType
  have hhomes : d.toType.homes = [d.home] := rfl
  rw [hhomes] at hwrites
  have hvisit : RenderEnv.visit ⟨o.language, l⟩ k [d.home] ≤ s.linkage := by
    rw [← hwrites.linkage k]
    exact hle
  have hholds : ∀ home ∈ [d.home], l.Holds home := by
    intro home hhome
    rw [List.mem_singleton.mp hhome]
    exact (h.spelled hl hs).1
  refine ⟨_, Linkage.Qualifies.of_visit hholds hvisit d.home (List.mem_singleton_self _), ?_⟩
  -- the qualifier that was given then is the one that the finished file answers
  have hresult := hwrites.result k (RenderEnv.answer ⟨o.language, l⟩ s.linkage)
    fun home hhome => RenderEnv.answer_of_visit_le _ hvisit home hhome
  rw [← htext]
  exact congrArg Rendered.text hresult

end Rendered

/-- **Types that are rendered alike are one.** In a file of Go or TypeScript, whenever two types
were rendered into it, their texts are the same, the stars of pointers aside, exactly if the files
that declare them are in one package and the names that they got there are the same. With the stars
they are the same exactly if moreover both types are behind a pointer or neither is. So types of
two packages, one of them perhaps the file's own, are never rendered alike. -/
theorem rendered_alike (o : Options) (requests : List Request) (ho : o.language ≠ .openApi)
    {file : String} {s : Scope}
    (hs : ((Run.new o).serveAll requests).library.scope? file = some s)
    {d d' : Located} {text text' : String}
    (hd : s.Renders o.language ((Run.new o).serveAll requests).library d text)
    (hd' : s.Renders o.language ((Run.new o).serveAll requests).library d' text') :
    let l := ((Run.new o).serveAll requests).library
    (o.language.aliasType text = o.language.aliasType text' ↔
      l.OnePackage o.language s d.home d'.home ∧ d.name = d'.name) ∧
    (text = text' ↔ (l.OnePackage o.language s d.home d'.home ∧ d.name = d'.name) ∧
      (o.language = .go → d.underlying.isStructLike = d'.underlying.isStructLike)) := by
  have hlibrary := Run.sound_serveAll o requests
  intro l
  change l.scope? file = some s at hs
  change s.Renders o.language l d text at hd
  change s.Renders o.language l d' text' at hd'
  change l.Sound o _ at hlibrary
  clear_value l
  obtain ⟨t, m, k, -, hle, hbuilt⟩ := hlibrary.built file s hs
  have htidy := hbuilt.tidy_linkage
  have hpackaged : m.Packaged o := fun file u hu => hlibrary.packaged file u (hle file u hu)
  have hplain := hbuilt.plain_aliases ho hpackaged
  obtain ⟨q, hq, rfl⟩ := hd.qualified hlibrary hs
  obtain ⟨q', hq', rfl⟩ := hd'.qualified hlibrary hs
  have hname := Naming.Plain.of_isIdentifier (hd.spelled hlibrary hs).2
  have hname' := Naming.Plain.of_isIdentifier (hd'.spelled hlibrary hs).2
  have hpackages := eq_iff_onePackage hlibrary.packaged htidy hq hq'
  refine ⟨?_, ?_⟩
  · rw [Language.aliasType_eq_iff ho (hq.plain htidy hplain) hname (hq'.plain htidy hplain) hname',
      hpackages]
  · rw [Language.declaredType_eq_iff ho (hq.plain htidy hplain) hname (hq'.plain htidy hplain)
      hname', hpackages]

/-- What a finished file has found and is written with is rendered into it. -/
theorem Scope.Renders.of_again {s : Scope} {g : Language} {l : Library} {d : Located}
    {t : IdlType} {owner text : String}
    (hlocate : (l.locate (s.within s.linkage.includes) t owner).toOption = some d)
    (htext : (RenderEnv.type ⟨g, l⟩ d.toType s.linkage).1.text = text)
    (hagain : (RenderEnv.type ⟨g, l⟩ d.toType s.linkage).2 = s.linkage) :
    s.Renders g l d text := by
  refine ⟨⟨s.linkage.includes, _, t, owner, .inl rfl, toOption_eq_some.mp hlocate⟩, s.linkage, ?_,
    htext⟩
  rw [hagain]

set_option maxRecDepth 100000 in
/-- The color of the holder is the one of its package and name, however often it is rendered. -/
theorem rendered_alike_color : ∃ s, (Sample.library {}).scope? "user.thrift" = some s ∧
    ∃ d, d.home = .foreign "base.thrift" ∧ s.Renders .go (Sample.library {}) d "base.Color" ∧
      ∀ d', s.Renders .go (Sample.library {}) d' "base.Color" →
        ((Sample.library {}).packageOf s d'.home).path = "base" ∧ d'.name = "Color" := by
  let color : Located := ⟨.foreign "base.thrift", "Color", .enum, .enum⟩
  have hfound : ((Sample.library {}).scope? "user.thrift").any (fun s =>
      decide (((Sample.library {}).locate (s.within s.linkage.includes)
        (.named "base.Color" .enum) "").toOption = some color) &&
      decide ((RenderEnv.type ⟨.go, Sample.library {}⟩ color.toType s.linkage).1.text =
        "base.Color") &&
      decide ((RenderEnv.type ⟨.go, Sample.library {}⟩ color.toType s.linkage).2 = s.linkage) &&
      decide (((Sample.library {}).packageOf s color.home).path = "base")) = true := by
    decide +kernel
  obtain ⟨s, hs, hfound⟩ := (Option.any_eq_true _ _).mp hfound
  simp only [Bool.and_eq_true, decide_eq_true_eq] at hfound
  obtain ⟨⟨⟨hlocate, htext⟩, hagain⟩, hpath⟩ := hfound
  have hcolor := Scope.Renders.of_again hlocate htext hagain
  refine ⟨s, hs, color, rfl, hcolor, ?_⟩
  intro d' hd'
  obtain ⟨-, halike⟩ := rendered_alike {} [.build Sample.user] (by decide) hs hd' hcolor
  obtain ⟨⟨⟨hsame, -⟩, hname⟩, -⟩ := halike.mp rfl
  exact ⟨hsame.trans hpath, hname⟩

namespace Sample

/-- An item of a shop. -/
def stock : Tree where
  document := { Document.empty "stock.thrift" with
    namespaces := [⟨"go", "shop"⟩]
    structs := [⟨"struct", "Item", [], [], none⟩] }
  includes := []

/-- An order of that item and of one of the same shop that the file declares itself. -/
def purchase : Tree where
  document := { Document.empty "order.thrift" with
    namespaces := [⟨"go", "shop"⟩]
    structs := [⟨"struct", "Item", [], [], none⟩, ⟨"struct", "Order",
      [⟨1, "own", .default, .named "Item" .struct, none, []⟩,
        ⟨2, "other", .default, .named "stock.Item" .struct, none, []⟩], [], none⟩] }
  includes := [⟨"stock.thrift", true, stock⟩]

/-- The library of a run that has built the order. -/
def purchased : Library := ((Run.new {}).serveAll [.build purchase]).library

/-- The item that is declared at a home. -/
def item (home : Home) : Located := ⟨home, "Item", .structLike .struct, .struct⟩

end Sample

set_option maxRecDepth 100000 in
/-- A type of the file itself and one of another file are rendered alike, if the files share a
package. -/
theorem rendered_alike_inside : ∃ s, Sample.purchased.scope? "order.thrift" = some s ∧
    ∃ d d' : Located, d.home = .here ∧ d'.home = .foreign "stock.thrift" ∧
      s.Renders .go Sample.purchased d "*Item" ∧ s.Renders .go Sample.purchased d' "*Item" := by
  have hfound : (Sample.purchased.scope? "order.thrift").any (fun s =>
      [("Item", Home.here), ("stock.Item", .foreign "stock.thrift")].all fun (name, home) =>
        decide ((Sample.purchased.locate (s.within s.linkage.includes) (.named name .struct)
          "").toOption = some (Sample.item home)) &&
        decide ((RenderEnv.type ⟨.go, Sample.purchased⟩ (Sample.item home).toType
          s.linkage).1.text = "*Item") &&
        decide ((RenderEnv.type ⟨.go, Sample.purchased⟩ (Sample.item home).toType
          s.linkage).2 = s.linkage)) = true := by
    decide +kernel
  obtain ⟨s, hs, hfound⟩ := (Option.any_eq_true _ _).mp hfound
  simp only [List.all_cons, List.all_nil, Bool.and_eq_true, decide_eq_true_eq] at hfound
  obtain ⟨⟨⟨hlocate, htext⟩, hagain⟩, ⟨⟨hlocate', htext'⟩, hagain'⟩, -⟩ := hfound
  exact ⟨s, hs, Sample.item .here, Sample.item (.foreign "stock.thrift"), rfl, rfl,
    .of_again hlocate htext hagain, .of_again hlocate' htext' hagain'⟩

end IdlScope

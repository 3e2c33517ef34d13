import IdlScope.Proofs.Identifiers
import IdlScope.Proofs.Linkages

/-!
# Aliases — what a qualifier tells

A foreign type is written behind the alias of its package and a dot. The alias comes from a
namespace, which may hold any character, and it is registered under a path that every importing
file spells in its own way.

* **`plain_aliasOf`** — an alias holds neither a dot nor a star, whatever the namespace was.
* **`Language.importPath_inj`** — in one file, different packages have different import paths,
  relative ones included.
* **`Scope.Built.plain_aliases`** — an alias stays plain when underscores make it free, so those
  of a finished file are.
-/

namespace IdlScope

/-! ## Lower case -/

namespace Unicode

theorem toNat_ofNat {n : Nat} (h : n.isValidChar) : (Char.ofNat n).toNat = n := by
  rw [Char.ofNat, dif_pos h]
  rfl

/-- A character has its own number; what is not a code point is the zero character. -/
theorem ofNat_ne {c : Char} (hpos : 0 < c.toNat) {n : Nat} (hn : c.toNat ≠ n) :
    c ≠ Char.ofNat n := by
  rintro rfl
  by_cases h : n.isValidChar
  · exact hn (toNat_ofNat h)
  · rw [Char.ofNat, dif_neg h] at hpos
    exact absurd hpos (by decide)

/-- A character is mapped to itself, or to what stands in one of the tables. -/
theorem mem_mapCase {growing : List (Nat × List Nat)} {rows : List CaseRow} {c d : Char}
    (h : c ∈ mapCase growing rows d) :
    c = d ∨ ∃ n, c = Char.ofNat n ∧ ((∃ e ∈ growing, n ∈ e.2) ∨
      ∃ row ∈ rows, row.image ≤ n ∧ n < row.image + row.count * row.step) := by
  rw [mapCase] at h
  split at h
  · next image himage =>
    obtain ⟨n, hn, rfl⟩ := List.mem_map.mp h
    exact .inr ⟨n, rfl, .inl ⟨(d.toNat, image), mem_of_lookup himage, hn⟩⟩
  · split at h
    · next n hn =>
      obtain ⟨row, hrow, hn⟩ := List.exists_of_findSome?_eq_some hn
      rw [CaseRow.map?] at hn
      split at hn
      · have := Option.some.inj hn
        exact .inr ⟨n, List.mem_singleton.mp h, .inr ⟨row, hrow, by omega, by omega⟩⟩
      · cases hn
    · exact .inl (List.mem_singleton.mp h)

theorem eq_of_toLower {c d : Char} (hc : c.toNat < 65) (h : c = d.toLower) : d = c := by
  subst h
  by_cases hupper : 65 ≤ d.val ∧ d.val ≤ 90
  · -- a capital has a lower case behind all signs and digits
    have heq : d.toLower.toNat = (d.val + 32).toNat := congrArg Char.toNat (dif_pos hupper)
    have hfirst : 65 ≤ d.val.toNat := UInt32.le_iff_toNat_le.mp hupper.1
    have hlast : d.val.toNat ≤ 90 := UInt32.le_iff_toNat_le.mp hupper.2
    rw [heq, UInt32.toNat_add, show (32 : UInt32).toNat = 32 from rfl] at hc
    omega
  · have hsame : d.toLower = d := dif_neg hupper
    exact hsame.symm

set_option maxRecDepth 10000 in
/-- No row leads to signs and digits. -/
theorem le_image_of_mem_lowerRows : ∀ row ∈ lowerRows, 65 ≤ row.image := by decide

/-- The one character that grows does not either. -/
theorem le_image_of_mem_lowerGrowing : ∀ e ∈ lowerGrowing, ∀ n ∈ e.2, 65 ≤ n := by decide

/-- Signs and digits are the lower case of themselves only. -/
theorem eq_of_mem_lower {c d : Char} (hpos : 0 < c.toNat) (hc : c.toNat < 65)
    (h : c ∈ lower d) : d = c := by
  rw [lower] at h
  by_cases hascii : d.toNat < 128
  · rw [if_pos hascii, List.mem_singleton] at h
    exact eq_of_toLower hc h
  · rw [if_neg hascii] at h
    obtain rfl | ⟨n, heq, htable⟩ := mem_mapCase h
    · rfl
    · have hlarge : 65 ≤ n := by
        rcases htable with ⟨e, he, hn⟩ | ⟨row, hrow, hn, -⟩
        · exact le_image_of_mem_lowerGrowing e he n hn
        · exact (le_image_of_mem_lowerRows row hrow).trans hn
      exact absurd heq (ofNat_ne hpos (by omega))

theorem mem_of_mem_lowercaseFrom {c : Char} (hpos : 0 < c.toNat) (hc : c.toNat < 65)
    {cs before : List Char} (h : c ∈ lowercaseFrom before cs) : c ∈ cs := by
  induction cs generalizing before with
  | nil => exact absurd h List.not_mem_nil
  | cons d cs ih =>
      rw [lowercaseFrom] at h
      rcases List.mem_append.mp h with h | h
      · rw [List.mem_cons]
        refine .inl ?_
        split at h
        · -- a sigma is far from all signs
          exfalso
          split at h <;> rw [List.mem_singleton.mp h] at hc <;> exact absurd hc (by decide)
        · exact (eq_of_mem_lower hpos hc h).symm
      · exact List.mem_cons_of_mem _ (ih h)

/-- Lower case brings in no signs and digits. -/
theorem mem_of_mem_lowercase {c : Char} (hpos : 0 < c.toNat) (hc : c.toNat < 65) {s : String}
    (h : c ∈ (lowercase s).toList) : c ∈ s.toList := by
  rw [lowercase, String.toList_ofList] at h
  exact mem_of_mem_lowercaseFrom hpos hc h

end Unicode

/-! ## Names without marks -/

/-- Neither the dot behind a qualifier nor the star of a pointer is in the text. -/
structure Naming.Plain (s : String) : Prop where
  dot : '.' ∉ s.toList
  star : '*' ∉ s.toList

namespace Naming

theorem Plain.of_isIdentifier {name : String} (h : isIdentifier name = true) : Plain name :=
  ⟨not_mem_of_isIdentifier h (by decide), not_mem_of_isIdentifier h (by decide)⟩

theorem Plain.push {name : String} (h : Plain name) : Plain (name.push '_') := by
  constructor
  all_goals
    rw [String.toList_push, List.mem_append, List.mem_singleton]
    rintro (hmem | hmem)
  · exact h.dot hmem
  · exact absurd hmem (by decide)
  · exact h.star hmem
  · exact absurd hmem (by decide)

end Naming

/-- What is no letter, digit or underscore is in no alias of a namespace. -/
theorem not_mem_aliasOf {c : Char} (hpos : 0 < c.toNat) (hc : c.toNat < 65)
    (hother : Unicode.isAlphanumeric c = false) (domain : String) :
    c ∉ (aliasOf domain).toList := by
  have hgap : c ≠ '_' := by
    rintro rfl
    exact absurd hc (by decide)
  have hchars : c ∉ aliasChars domain := by
    intro hmem
    obtain ⟨d, -, hd⟩ := List.mem_map.mp hmem
    split at hd
    · next hkept =>
      subst hd
      rw [hother, Bool.false_or, beq_iff_eq] at hkept
      exact hgap hkept
    · exact hgap hd.symm
  rw [aliasOf]
  split
  · rw [show "_".toList = ['_'] from rfl, List.mem_singleton]
    exact hgap
  · intro hmem
    have := Unicode.mem_of_mem_lowercase hpos hc hmem
    rw [String.toList_ofList] at this
    exact hchars this

/-- **An alias has no dots and no stars**, whatever namespace it comes from. -/
theorem plain_aliasOf (domain : String) : Naming.Plain (aliasOf domain) :=
  ⟨not_mem_aliasOf (by decide) (by decide) (by decide) domain,
    not_mem_aliasOf (by decide) (by decide) (by decide) domain⟩

/-! ## Import paths -/

/-- Parts with a separator between them are told by the text in front and the parts behind. -/
theorem intercalate_cons_head (sep part : List Char) (c : Char) (parts : List (List Char)) :
    sep.intercalate ((c :: part) :: parts) = c :: sep.intercalate (part :: parts) := by
  cases parts with
  | nil => simp
  | cons next parts => simp [List.intercalate_cons_cons]

/-- The parts of a text hold no separator, and joined with another separator they are the text
with that one in its place. -/
theorem splitOn_segments (old new : Char) (cs : List Char) :
    (∀ part ∈ cs.splitOn old, old ∉ part) ∧
      [new].intercalate (cs.splitOn old) = cs.map fun c => if c == old then new else c := by
  induction cs with
  | nil => simp
  | cons c cs ih =>
      obtain ⟨hparts, hjoin⟩ := ih
      obtain ⟨part, parts, heq⟩ := List.exists_cons_of_ne_nil (List.splitOn_ne_nil old cs)
      rw [List.splitOn_cons_eq_if_modifyHead]
      rw [heq] at hparts hjoin ⊢
      by_cases hc : (c == old) = true
      · rw [if_pos hc, List.map_cons, if_pos hc, ← hjoin, List.intercalate_cons_cons]
        exact ⟨List.forall_mem_cons.mpr ⟨List.not_mem_nil, hparts⟩, rfl⟩
      · rw [if_neg hc, List.map_cons, if_neg hc, ← hjoin, List.modifyHead_cons,
          intercalate_cons_head]
        refine ⟨List.forall_mem_cons.mpr ⟨?_, fun p hp => hparts p (List.mem_cons_of_mem _ hp)⟩,
          rfl⟩
        intro hmem
        rcases List.mem_cons.mp hmem with rfl | hmem
        · exact hc (beq_self_eq_true old)
        · exact hparts part List.mem_cons_self hmem

/-- A segment of a namespace holds no dot. -/
theorem dot_not_mem_segment {domain segment : String} (h : segment ∈ Text.split '.' domain) :
    '.' ∉ segment.toList := by
  obtain ⟨part, hpart, rfl⟩ := List.mem_map.mp h
  rw [String.toList_ofList]
  exact (splitOn_segments '.' '/' domain.toList).1 part hpart

/-- The path of a namespace is its segments with slashes between them. -/
theorem domainPath_eq (domain : String) :
    domainPath domain = "/".intercalate (Text.split '.' domain) := by
  rw [← String.toList_inj, String.toList_intercalate, Text.split, List.map_map, domainPath,
    Text.substitute, String.toList_ofList]
  have hparts : String.toList ∘ String.ofList = id := funext fun _ => String.toList_ofList
  rw [hparts, List.map_id]
  exact (splitOn_segments '.' '/' domain.toList).2.symm

theorem intercalate_cons_of_ne_nil (first : String) {rest : List String} (h : rest ≠ []) :
    "/".intercalate (first :: rest) = first ++ "/" ++ "/".intercalate rest := by
  obtain ⟨second, others, rfl⟩ := List.exists_cons_of_ne_nil h
  exact String.intercalate_cons_cons

/-- Paths that begin alike differ in what comes then. -/
theorem intercalate_append_inj (front : List String) {rest rest' : List String} (h : rest ≠ [])
    (h' : rest' ≠ []) (heq : "/".intercalate (front ++ rest) = "/".intercalate (front ++ rest')) :
    "/".intercalate rest = "/".intercalate rest' := by
  induction front with
  | nil => exact heq
  | cons first front ih =>
      rw [List.cons_append, List.cons_append,
        intercalate_cons_of_ne_nil _ (List.append_ne_nil_of_right_ne_nil front h),
        intercalate_cons_of_ne_nil _ (List.append_ne_nil_of_right_ne_nil front h')] at heq
      exact ih ((String.append_right_inj _).mp heq)

/-- The way up from two levels down goes on with a dot. -/
theorem dot_mem_of_climb {here goal : List String} (hhere : here.dropLast ≠ []) (hgoal : goal ≠ [])
    {rest : String}
    (h : "/".intercalate (here.map (fun _ => "..") ++ goal) = "../" ++ rest) :
    '.' ∈ rest.toList := by
  match here, hhere with
  | _ :: _ :: others, _ =>
    rw [List.map_cons, List.map_cons, List.cons_append, List.cons_append,
      intercalate_cons_of_ne_nil _ (List.cons_ne_nil _ _), String.append_assoc,
      intercalate_cons_of_ne_nil _ (List.append_ne_nil_of_right_ne_nil _ hgoal)] at h
    have hrest := (String.append_right_inj "../").mp (h.symm.trans (by
      rw [← String.append_assoc]
      rfl))
    rw [hrest]
    simp

theorem getLast_mem_split (target : String) :
    (Text.split '.' target).getLast?.getD "" ∈ Text.split '.' target := by
  rw [List.getLast?_eq_some_getLast (Text.split_ne_nil '.' target), Option.getD_some]
  exact List.getLast_mem _

/-- Namespaces with different paths are reached from a third one by different ways: a neighbour
has no dots behind the first step up, and any other way goes up to the root. -/
theorem relativePath_inj (source : String) {target target' : String}
    (h : relativePath source target = relativePath source target') :
    domainPath target = domainPath target' := by
  have hgoal := Text.split_ne_nil '.' target
  have hgoal' := Text.split_ne_nil '.' target'
  have hlast := dot_not_mem_segment (getLast_mem_split target)
  have hlast' := dot_not_mem_segment (getLast_mem_split target')
  rw [domainPath_eq, domainPath_eq]
  rw [relativePath, relativePath] at h
  dsimp only at h
  by_cases hsource : source = ""
  · rw [if_pos hsource, if_pos hsource] at h
    exact (String.append_right_inj _).mp h
  · rw [if_neg hsource, if_neg hsource] at h
    generalize Text.split '.' source = here at h
    generalize Text.split '.' target = goal at h hgoal hlast ⊢
    generalize Text.split '.' target' = goal' at h hgoal' hlast' ⊢
    split at h
    · next hnear =>
      split at h
      · next hnear' =>
        -- neighbours of one namespace have one parent
        have hsegment := (String.append_right_inj _).mp h
        rw [List.getLast?_eq_some_getLast hgoal, List.getLast?_eq_some_getLast hgoal',
          Option.getD_some, Option.getD_some] at hsegment
        rw [← List.dropLast_append_getLast hgoal, ← List.dropLast_append_getLast hgoal',
          ← hnear.2, ← hnear'.2, hsegment]
      · exact absurd (dot_mem_of_climb hnear.1 hgoal' h.symm) hlast
    · split at h
      · next hnear' => exact absurd (dot_mem_of_climb hnear'.1 hgoal h) hlast'
      · exact intercalate_append_inj _ hgoal hgoal' h

theorem startsWith_append_slash (head rest rest' : String) (h : head ≠ "") :
    Text.startsWith "./" (head ++ "/" ++ rest) = Text.startsWith "./" (head ++ "/" ++ rest') := by
  rw [Text.startsWith, Text.startsWith]
  simp only [String.toList_append]
  -- the two characters that are asked for are in front of what follows the slash
  match hhead : head.toList with
  | [] => exact absurd (String.toList_eq_nil_iff.mp hhead) h
  | [_] => simp [List.isPrefixOf]
  | _ :: _ :: _ => simp [List.isPrefixOf]

/-- **In one file, an import path tells the package.** -/
theorem Language.importPath_inj (g : Language) (own : Package) (d d' : Document) (head : String)
    (h : g.importPath own (g.package d head) = g.importPath own (g.package d' head)) :
    (g.package d head).path = (g.package d' head).path := by
  cases g with
  | go | openApi => exact h
  | typescript =>
      dsimp only [importPath, package] at h ⊢
      generalize ((d.namespaceFor? "ts").or (d.namespaceFor? "typescript")).getD d.stem = domain
        at h ⊢
      generalize ((d'.namespaceFor? "ts").or (d'.namespaceFor? "typescript")).getD d'.stem =
        domain' at h ⊢
      by_cases hhead : head = ""
      · have hstart : ∀ path, Text.startsWith "./" ("./" ++ path) = true := by
          intro path
          simp [Text.startsWith, List.isPrefixOf]
        simp only [if_pos hhead, hstart, if_true] at h ⊢
        rw [relativePath_inj own.domain h]
      · -- below a prefix, either all packages have relative paths or none has
        simp only [if_neg hhead, joinPath] at h ⊢
        rw [startsWith_append_slash head (domainPath domain') (domainPath domain) hhead] at h
        split at h
        · rw [relativePath_inj own.domain h]
        · exact h

/-! ## Aliases of finished files -/

/-- The aliases of the imports are plain. -/
def Linkage.PlainAliases (k : Linkage) : Prop :=
  ∀ i ∈ k.imports.imports, Naming.Plain i.name

/-- The packages of all scopes are those that the language makes from their documents. -/
def Library.Packaged (o : Options) (l : Library) : Prop :=
  ∀ file s, l.scope? file = some s → s.package = o.language.package s.document o.packagePrefix

theorem Scope.Built.package_eq {s : Scope} {o : Options} {t : Tree} {l : Library} {k : Linkage}
    (h : s.Built o t l k) : s.package = o.language.package s.document o.packagePrefix := by
  rw [Document.document_of_scope h.scope]
  have hle : o.unlinked t.document ≤ s.linkage := h.links.le.trans h.spans.le
  exact hle.1.symm

theorem Library.Sound.packaged {o : Options} {P : Tree → Prop} {l : Library} (h : l.Sound o P) :
    l.Packaged o := by
  intro file s hs
  obtain ⟨t, m, k, -, -, hbuilt⟩ := h.built file s hs
  exact hbuilt.package_eq

/-- A package is imported under the alias of its namespace. -/
theorem preferredAlias_eq {g : Language} (hg : g ≠ .openApi) (d : Document) (head : String) :
    (g.package d head).preferredAlias = aliasOf (g.package d head).domain := by
  cases g with
  | go | typescript => dsimp only [Language.package]
  | openApi => exact absurd rfl hg

/-- What holds of every alias that a scope of the library may get, with the path of its import,
holds of all imports of a file. -/
theorem Linkage.lasting_imports {g : Language} {l : Library} {Q : Package → String → String → Prop}
    (hfresh : ∀ file s own (t : NameTable), l.scope? file = some s →
      Q own (g.importPath own s.package) (t.fresh s.package.preferredAlias)) :
    Lasting g l fun k => ∀ i ∈ k.imports.imports, Q k.package i.path i.name := by
  refine ⟨?_, fun k hk => hk, ?_⟩
  · intro k file s hs hk
    rw [append]
    dsimp only
    split
    · exact hk
    · intro i hi
      rw [ImportTable.add] at hi
      split at hi
      · obtain ⟨j, hj, rfl⟩ := List.mem_map.mp hi
        have := hk j hj
        split <;> exact this
      · rcases List.mem_append.mp hi with hi | hi
        · exact hk i hi
        · rw [List.mem_singleton.mp hi]
          exact hfresh file s k.package _ hs
  · intro k path used hk i hi
    obtain ⟨j, hj, rfl⟩ := List.mem_map.mp hi
    have := hk j hj
    split <;> exact this

/-- What underscores do not change about a name holds of all aliases if it holds of the preferred
ones. -/
theorem Linkage.lasting_aliases {g : Language} {l : Library} {Q : String → Prop}
    (hpush : ∀ name, Q name → Q (name.push '_'))
    (hl : ∀ file s, l.scope? file = some s → Q s.package.preferredAlias) :
    Lasting g l fun k => ∀ i ∈ k.imports.imports, Q i.name :=
  lasting_imports (Q := fun _ _ name => Q name) fun file s _ t hs =>
    NameTable.fresh_of hpush t (hl file s hs)

section Finished

variable {s : Scope} {o : Options} {t : Tree} {l : Library} {k : Linkage} (h : s.Built o t l k)
  (ho : o.language ≠ .openApi) (hl : l.Packaged o)
include h ho hl

/-- What underscores do not change about a name holds of the aliases of a finished file if it
holds of every alias that is made from a namespace. -/
theorem Scope.Built.aliases_of {Q : String → Prop} (hpush : ∀ name, Q name → Q (name.push '_'))
    (halias : ∀ domain, Q (aliasOf domain)) : ∀ i ∈ s.linkage.imports.imports, Q i.name := by
  refine h.lasting (Linkage.lasting_aliases hpush fun file u hu => ?_) fun _ hi =>
    absurd hi List.not_mem_nil
  rw [hl file u hu, preferredAlias_eq ho]
  exact halias _

/-- The aliases of a finished file are plain. -/
theorem Scope.Built.plain_aliases : s.linkage.PlainAliases :=
  h.aliases_of ho hl (fun _ => .push) plain_aliasOf

end Finished

end IdlScope

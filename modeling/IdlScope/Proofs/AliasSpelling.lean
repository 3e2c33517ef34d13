import IdlScope.Proofs.Aliases

/-!
# Spelling of aliases — when an alias is an identifier

An alias is the last segment of a namespace, with an underscore in place of every character that
is neither a letter nor a digit, in lower case. But there are more letters and digits than
characters of identifiers, and not all of these may come first.

* **`Unicode.stands_lower`** — in a name, the lower case of a character counts as the character
  itself. This is read off the tables, whose sets are compared as bits of numbers.
* **`isIdentifier_aliasOf_iff`** — so it is the segment that decides: all its letters and digits
  have to be characters of identifiers, and the first one has to be one that may come first.
* **`alias_spelled_iff`** — the aliases of a finished file are those of the imported packages, up to
  underscores behind them, which change nothing about this.

A segment that begins with a digit therefore leads to an alias that is no identifier
(`alias_unspelled`).
-/

namespace IdlScope

/-! ## Sets as numbers -/

namespace RunTable

/-- The set as the bits of one number. -/
def bits : RunTable → Nat
  | gap :: run :: rest => ((1 <<< run - 1) ||| (bits rest <<< run)) <<< gap
  | _ => 0

theorem contains_eq_testBit (t : RunTable) (n : Nat) : t.contains n = t.bits.testBit n := by
  fun_induction contains t n with
  | case1 n gap run rest hgap =>
      rw [bits, Nat.testBit_shiftLeft, decide_eq_false (by omega), Bool.false_and]
  | case2 n gap run rest hgap hrun =>
      rw [bits, Nat.testBit_shiftLeft, Nat.testBit_or, Nat.one_shiftLeft,
        Nat.testBit_two_pow_sub_one, decide_eq_true (by omega), decide_eq_true (by omega)]
      rfl
  | case3 n gap run rest hgap hrun ih =>
      rw [bits, Nat.testBit_shiftLeft, Nat.testBit_or, Nat.one_shiftLeft,
        Nat.testBit_two_pow_sub_one, Nat.testBit_shiftLeft, decide_eq_true (by omega),
        decide_eq_false (by omega), decide_eq_true (by omega), ih, Nat.sub_add_eq]
      rfl
  | case4 t n ht => rw [bits.eq_2 t ht, Nat.zero_testBit]

/-- The number with the bits `0, step, …`, of which there are `count`. -/
def comb (step : Nat) : Nat → Nat
  | 0 => 0
  | count + 1 => 1 ||| (comb step count <<< step)

theorem testBit_comb (step : Nat) {count i : Nat} (h : i < count) :
    (comb step count).testBit (i * step) = true := by
  induction count generalizing i with
  | zero => exact absurd h (Nat.not_lt_zero i)
  | succ count ih =>
      rw [comb, Nat.testBit_or, Nat.testBit_shiftLeft]
      cases i with
      | zero => simp
      | succ i =>
          rw [Nat.succ_mul, decide_eq_true (Nat.le_add_left _ _), Nat.add_sub_cancel,
            ih (Nat.lt_of_succ_lt_succ h), Bool.and_true, Bool.or_true]

/-- Is `n + i * step` in the set exactly if `m + i * step` is, for all `i` below `count`? -/
def alike (t : RunTable) (n m step count : Nat) : Bool :=
  (t.bits >>> n) &&& comb step count == (t.bits >>> m) &&& comb step count

theorem contains_of_alike {t : RunTable} {n m step count : Nat}
    (h : t.alike n m step count = true) {i : Nat} (hi : i < count) :
    t.contains (n + i * step) = t.contains (m + i * step) := by
  have hbit : ∀ k, t.contains (k + i * step) =
      ((t.bits >>> k) &&& comb step count).testBit (i * step) := by
    intro k
    rw [contains_eq_testBit, Nat.testBit_and, Nat.testBit_shiftRight, testBit_comb step hi,
      Bool.and_true]
  rw [hbit, hbit, eq_of_beq h]

end RunTable

/-! ## Names and the characters in them -/

namespace Naming

theorem isIdentifierChars_cons (c : Char) (rest : List Char) :
    isIdentifierChars (c :: rest) =
      (isIdentifierChars [c] && rest.all Unicode.isXidContinue) := by
  simp [isIdentifierChars]

theorem isIdentifierChars_append {cs : List Char} (h : cs ≠ []) (rest : List Char) :
    isIdentifierChars (cs ++ rest) =
      (isIdentifierChars cs && rest.all Unicode.isXidContinue) := by
  obtain ⟨c, cs, rfl⟩ := List.exists_cons_of_ne_nil h
  rw [List.cons_append, isIdentifierChars_cons, isIdentifierChars_cons c cs, List.all_append,
    Bool.and_assoc]

/-- In a name, the characters count as the one that they stand for, at the start and behind it. -/
structure Stands (cs : List Char) (c : Char) : Prop where
  ne_nil : cs ≠ []
  first : isIdentifierChars cs = isIdentifierChars [c]
  behind : cs.all Unicode.isXidContinue = Unicode.isXidContinue c

theorem stands_self (c : Char) : Stands [c] c :=
  ⟨List.cons_ne_nil _ _, rfl, by simp⟩

/-- An underscore behind a name changes nothing. -/
theorem isIdentifier_underscored {name : String} (h : name ≠ "") (n : Nat) :
    isIdentifier (NameTable.underscored n name) = isIdentifier name := by
  induction n generalizing name with
  | zero => rfl
  | succ n ih =>
      have hchars : name.toList ≠ [] := fun hnil => h (String.toList_eq_nil_iff.mp hnil)
      rw [NameTable.underscored_succ, ih (by simp), isIdentifier, isIdentifier,
        String.toList_push, isIdentifierChars_append hchars]
      have hgap : ['_'].all Unicode.isXidContinue = true := by decide
      rw [hgap, Bool.and_true]

end Naming

/-! ## Lower case -/

namespace Unicode

open Naming (Stands)

/-- The images of the row are characters beyond ASCII, each of which may start or continue an
identifier exactly if its source may. -/
def CaseRow.KeepsClass (row : CaseRow) : Prop :=
  128 ≤ row.image ∧
    (∀ i < row.count, (row.image + i * row.step).isValidChar) ∧
    xidStartRuns.alike row.first row.image row.step row.count = true ∧
    xidExtendRuns.alike row.first row.image row.step row.count = true

instance (row : CaseRow) : Decidable row.KeepsClass :=
  inferInstanceAs (Decidable (_ ∧ _))

/-- What a row maps, it maps in steps. -/
theorem CaseRow.exists_of_map? {row : CaseRow} {n m : Nat} (h : row.map? n = some m) :
    ∃ i < row.count, n = row.first + i * row.step ∧ m = row.image + i * row.step := by
  rw [map?] at h
  split at h
  · next hrow =>
    obtain ⟨hfirst, hlast, hstep⟩ := hrow
    have hmul := Nat.div_mul_cancel (Nat.dvd_of_mod_eq_zero hstep)
    refine ⟨(n - row.first) / row.step, ?_, by omega, ?_⟩
    · refine Nat.lt_of_mul_lt_mul_right (a := row.step) ?_
      rw [hmul]
      omega
    · rw [hmul]
      exact (Option.some.inj h).symm
  · cases h

theorem isXidStart_of_le {c : Char} (h : 128 ≤ c.toNat) :
    isXidStart c = xidStartRuns.contains c.toNat := by
  rw [isXidStart, if_neg (by omega)]

theorem isXidExtend_of_le {c : Char} (h : 128 ≤ c.toNat) :
    isXidExtend c = xidExtendRuns.contains c.toNat := by
  rw [isXidExtend, if_neg (by omega)]

/-- Characters beyond ASCII of one class stand for each other. -/
theorem stands_of_contains {c d : Char} (hc : 128 ≤ c.toNat) (hd : 128 ≤ d.toNat)
    (hstart : xidStartRuns.contains d.toNat = xidStartRuns.contains c.toNat)
    (hextend : xidExtendRuns.contains d.toNat = xidExtendRuns.contains c.toNat) :
    Stands [d] c := by
  have hgap : ∀ {a : Char}, 128 ≤ a.toNat → (a == '_') = false := by
    intro a ha
    rw [beq_eq_false_iff_ne]
    rintro rfl
    exact absurd ha (by decide)
  have hcontinue : isXidContinue d = isXidContinue c := by
    rw [isXidContinue, isXidContinue, isXidStart_of_le hc, isXidStart_of_le hd,
      isXidExtend_of_le hc, isXidExtend_of_le hd, hstart, hextend]
  refine ⟨List.cons_ne_nil _ _, ?_, ?_⟩
  · rw [Naming.isIdentifierChars, Naming.isIdentifierChars, hgap hc, hgap hd,
      isXidStart_of_le hc, isXidStart_of_le hd, hstart]
  · rw [List.all_cons, List.all_nil, Bool.and_true, hcontinue]

theorem CaseRow.KeepsClass.stands {row : CaseRow} (h : row.KeepsClass) {c : Char}
    (hc : 128 ≤ c.toNat) {n : Nat} (hn : row.map? c.toNat = some n) :
    Stands [Char.ofNat n] c := by
  obtain ⟨hbeyond, hvalid, hstart, hextend⟩ := h
  obtain ⟨i, hi, hsource, rfl⟩ := exists_of_map? hn
  have himage := toNat_ofNat (hvalid i hi)
  refine stands_of_contains hc (by omega) ?_ ?_
  · rw [himage, hsource, RunTable.contains_of_alike hstart hi]
  · rw [himage, hsource, RunTable.contains_of_alike hextend hi]

set_option maxRecDepth 100000 in
/-- All rows keep the class, but for the one of the Kelvin sign, which is mapped to a `k`. -/
theorem keepsClass_of_mem_lowerRows :
    ∀ row ∈ lowerRows, row.KeepsClass ∨ row.first = 8490 ∧ row.count = 1 ∧ row.image = 107 := by
  decide +kernel

set_option maxRecDepth 100000 in
theorem stands_lower_ascii : ∀ n < 128,
    Naming.isIdentifierChars [(Char.ofNat n).toLower] = Naming.isIdentifierChars [Char.ofNat n] ∧
      isXidContinue (Char.ofNat n).toLower = isXidContinue (Char.ofNat n) := by
  decide +kernel

/-- **The lower case of a character stands for it.** -/
theorem stands_lower (c : Char) : Stands (lower c) c := by
  rw [lower]
  by_cases hascii : c.toNat < 128
  · rw [if_pos hascii]
    obtain ⟨hfirst, hbehind⟩ := stands_lower_ascii c.toNat hascii
    rw [Char.ofNat_toNat] at hfirst hbehind
    refine ⟨List.cons_ne_nil _ _, hfirst, ?_⟩
    rw [List.all_cons, List.all_nil, Bool.and_true, hbehind]
  · rw [if_neg hascii, mapCase]
    split
    · next image himage =>
      -- the one character that grows, a dotted capital
      obtain ⟨hnumber, rfl⟩ : c.toNat = 304 ∧ image = [105, 775] := by
        simpa [lowerGrowing] using mem_of_lookup himage
      obtain rfl : c = Char.ofNat 304 := by rw [← Char.ofNat_toNat c, hnumber]
      exact ⟨by decide, by decide +kernel, by decide +kernel⟩
    · split
      · next n hn =>
        obtain ⟨row, hrow, hn⟩ := List.exists_of_findSome?_eq_some hn
        rcases keepsClass_of_mem_lowerRows row hrow with hkeeps | ⟨hfirst, hcount, himage⟩
        · exact hkeeps.stands (by omega) hn
        · obtain ⟨i, hi, hsource, rfl⟩ := CaseRow.exists_of_map? hn
          obtain rfl : i = 0 := by omega
          obtain rfl : c = Char.ofNat 8490 := by
            rw [← Char.ofNat_toNat c, hsource, hfirst, Nat.zero_mul]
          rw [himage, Nat.zero_mul]
          exact ⟨by decide, by decide +kernel, by decide +kernel⟩
      · exact Naming.stands_self c

/-- So does what a character becomes in a text, where a capital sigma looks at its neighbours. -/
theorem stands_sigma (final : Bool) : Stands (if final then ['ς'] else ['σ']) 'Σ' := by
  cases final <;> exact ⟨by decide, by decide +kernel, by decide +kernel⟩

/-- The first character of a text is lowered to something that stands for it. -/
theorem exists_stands_lowercaseFrom (before : List Char) (c : Char) (cs : List Char) :
    ∃ image, Stands image c ∧
      lowercaseFrom before (c :: cs) = image ++ lowercaseFrom (c :: before) cs := by
  rw [lowercaseFrom]
  split
  · next hsigma =>
    obtain rfl := eq_of_beq hsigma
    exact ⟨_, stands_sigma _, rfl⟩
  · exact ⟨_, stands_lower c, rfl⟩

/-- A text in lower case is a name if the text is, and may follow in one if the text may. -/
theorem lowercaseFrom_alike (cs before : List Char) :
    Naming.isIdentifierChars (lowercaseFrom before cs) = Naming.isIdentifierChars cs ∧
      (lowercaseFrom before cs).all isXidContinue = cs.all isXidContinue := by
  induction cs generalizing before with
  | nil => exact ⟨rfl, rfl⟩
  | cons c cs ih =>
      obtain ⟨-, hrest⟩ := ih (c :: before)
      obtain ⟨image, himage, heq⟩ := exists_stands_lowercaseFrom before c cs
      rw [heq]
      constructor
      · rw [Naming.isIdentifierChars_append himage.ne_nil, himage.first, hrest,
          ← Naming.isIdentifierChars_cons]
      · rw [List.all_append, himage.behind, hrest, List.all_cons]

/-- **Lower case makes and breaks no identifier.** -/
theorem isIdentifier_lowercase (s : String) :
    Naming.isIdentifier (lowercase s) = Naming.isIdentifier s := by
  rw [Naming.isIdentifier, lowercase, String.toList_ofList]
  exact (lowercaseFrom_alike s.toList []).1

end Unicode

/-! ## Aliases -/

/-- The last segment of a namespace. -/
def lastSegment (domain : String) : List Char :=
  (Text.splitLast '.' domain).2.toList

/-- What stands in an alias for a character of the segment: the character, if it is a letter or a
digit, and otherwise an underscore, which may stand anywhere in an identifier. -/
theorem aliasChar_spec (c : Char) :
    let kept := if Unicode.isAlphanumeric c || c == '_' then c else '_'
    (Naming.isIdentifierChars [kept] = true ↔
      (Unicode.isAlphanumeric c = true → Unicode.isXidStart c = true)) ∧
    (Unicode.isXidContinue kept = true ↔
      (Unicode.isAlphanumeric c = true → Unicode.isXidContinue c = true)) := by
  intro kept
  by_cases hletter : Unicode.isAlphanumeric c = true
  · have hkept : kept = c := if_pos (by rw [hletter, Bool.true_or])
    have hgap : (c == '_') = false := by
      rw [beq_eq_false_iff_ne]
      rintro rfl
      exact absurd hletter (by decide)
    rw [hkept, Naming.isIdentifierChars, hgap]
    simp [hletter]
  · have hkept : kept = '_' := by
      by_cases hgap : c = '_'
      · exact (if_pos (by simp [hgap])).trans hgap
      · exact if_neg (by simp [hletter, hgap])
    rw [hkept]
    exact ⟨iff_of_true (by decide) fun h => absurd h hletter,
      iff_of_true (by decide) fun h => absurd h hletter⟩

/-- **The segment decides.** An alias is an identifier exactly if the letters and digits of the
segment may stand in one, and the first of them may come first. -/
theorem isIdentifier_aliasOf_iff (domain : String) :
    Naming.isIdentifier (aliasOf domain) = true ↔
      (∀ c ∈ (lastSegment domain).head?, Unicode.isAlphanumeric c = true →
        Unicode.isXidStart c = true) ∧
      ∀ c ∈ (lastSegment domain).tail, Unicode.isAlphanumeric c = true →
        Unicode.isXidContinue c = true := by
  have hchars : aliasChars domain = (lastSegment domain).map fun c =>
      if Unicode.isAlphanumeric c || c == '_' then c else '_' := rfl
  rw [aliasOf]
  cases hsegment : lastSegment domain with
  | nil =>
      rw [hchars, hsegment]
      exact iff_of_true (by decide) (by simp)
  | cons c cs =>
      rw [hchars, hsegment, List.map_cons]
      show Naming.isIdentifier (Unicode.lowercase (String.ofList (_ :: _))) = true ↔ _
      rw [Unicode.isIdentifier_lowercase, Naming.isIdentifier, String.toList_ofList,
        Naming.isIdentifierChars_cons, Bool.and_eq_true, (aliasChar_spec c).1, List.all_map,
        List.all_eq_true]
      refine and_congr ?_ (forall₂_congr fun d _ => (aliasChar_spec d).2)
      simp

theorem aliasOf_ne_empty (domain : String) : aliasOf domain ≠ "" := by
  rw [aliasOf]
  split
  · decide
  · next cs hne =>
    obtain ⟨c, rest, hcs⟩ := List.exists_cons_of_ne_nil hne
    obtain ⟨image, himage, heq⟩ := Unicode.exists_stands_lowercaseFrom [] c rest
    rw [Unicode.lowercase, String.toList_ofList, hcs, heq]
    intro hempty
    have hnil := congrArg String.toList hempty
    rw [String.toList_ofList] at hnil
    exact himage.ne_nil (List.append_eq_nil_iff.mp hnil).1

set_option maxRecDepth 100000 in
theorem isAlphanumeric_ascii : ∀ n < 128,
    (Unicode.isAlphanumeric (Char.ofNat n) = true → Unicode.isXidContinue (Char.ofNat n) = true) ∧
      ((Unicode.isAlphanumeric (Char.ofNat n) = true → Unicode.isXidStart (Char.ofNat n) = true) ↔
        (Char.ofNat n).isDigit = false) := by
  decide +kernel

/-- Within ASCII, only a digit at the start is in the way. -/
theorem isIdentifier_aliasOf_ascii {domain : String}
    (h : ∀ c ∈ lastSegment domain, c.toNat < 128) :
    Naming.isIdentifier (aliasOf domain) = true ↔
      ∀ c ∈ (lastSegment domain).head?, c.isDigit = false := by
  have hascii : ∀ c ∈ lastSegment domain,
      (Unicode.isAlphanumeric c = true → Unicode.isXidContinue c = true) ∧
        ((Unicode.isAlphanumeric c = true → Unicode.isXidStart c = true) ↔ c.isDigit = false) := by
    intro c hc
    have hclass := isAlphanumeric_ascii c.toNat (h c hc)
    rwa [Char.ofNat_toNat] at hclass
  rw [isIdentifier_aliasOf_iff]
  constructor
  · rintro ⟨hfirst, -⟩ c hc
    exact (hascii c (List.mem_of_head? hc)).2.mp (hfirst c hc)
  · intro hdigit
    refine ⟨fun c hc => ?_, fun c hc => (hascii c (List.mem_of_mem_tail hc)).1⟩
    exact (hascii c (List.mem_of_head? hc)).2.mpr (hdigit c hc)

/-! ## Every file of a run -/

/-- Every import of a finished file is one of a package of the library, under the alias of the
package with underscores behind it. -/
theorem Scope.Built.aliases_underscored {s : Scope} {o : Options} {t : Tree} {l : Library}
    {k : Linkage} (h : s.Built o t l k) : ∀ i ∈ s.linkage.imports.imports,
      ∃ file u n, l.scope? file = some u ∧ i.path = o.language.importPath s.package u.package ∧
        i.name = NameTable.underscored n u.package.preferredAlias := by
  refine h.lasting (Linkage.lasting_imports (Q := fun own path name => ∃ file u n,
    l.scope? file = some u ∧ path = o.language.importPath own u.package ∧
      name = NameTable.underscored n u.package.preferredAlias) ?_)
    fun _ hi => absurd hi List.not_mem_nil
  intro file u own names hu
  obtain ⟨n, -, hfresh, -, -⟩ :=
    NameTable.firstFree_eq names.holds names.size u.package.preferredAlias
  exact ⟨file, u, n, hu, rfl, hfresh⟩

/-- **When aliases are identifiers.** The alias of a package is an identifier exactly if, of the
letters and digits in the last segment of its namespace, all may stand in an identifier and the
first character, if it is one of them, may start one; within ASCII, exactly if the segment does not
start with a digit. This is so whatever the document declares and what its file is called. In every
file that a run comes to, every import is one of a package of the run, its alias has at most
underscores more than that of the package, and it is an identifier exactly if that one is. -/
theorem alias_spelled_iff (o : Options) (ho : o.language ≠ .openApi) (requests : List Request) :
    (∀ (d : Document) (head : String),
      let p := o.language.package d head
      (Naming.isIdentifier p.preferredAlias = true ↔
        (∀ c ∈ (lastSegment p.domain).head?, Unicode.isAlphanumeric c = true →
          Unicode.isXidStart c = true) ∧
        ∀ c ∈ (lastSegment p.domain).tail, Unicode.isAlphanumeric c = true →
          Unicode.isXidContinue c = true) ∧
      ((∀ c ∈ lastSegment p.domain, c.toNat < 128) →
        (Naming.isIdentifier p.preferredAlias = true ↔
          ∀ c ∈ (lastSegment p.domain).head?, c.isDigit = false))) ∧
    ∀ file s, ((Run.new o).serveAll requests).library.scope? file = some s →
      ∀ i ∈ s.linkage.imports.imports, ∃ other u n,
        ((Run.new o).serveAll requests).library.scope? other = some u ∧
          i.path = o.language.importPath s.package u.package ∧
          i.name = NameTable.underscored n u.package.preferredAlias ∧
          (Naming.isIdentifier i.name = true ↔
            Naming.isIdentifier u.package.preferredAlias = true) := by
  have hlibrary := Run.sound_serveAll o requests
  generalize ((Run.new o).serveAll requests).library = l at hlibrary ⊢
  refine ⟨fun d head => ?_, fun file s hs i hi => ?_⟩
  · intro p
    have halias : p.preferredAlias = aliasOf p.domain := preferredAlias_eq ho d head
    rw [halias]
    exact ⟨isIdentifier_aliasOf_iff p.domain, isIdentifier_aliasOf_ascii⟩
  · obtain ⟨t, m, k, -, hle, hbuilt⟩ := hlibrary.built file s hs
    obtain ⟨other, u, n, hu, hpath, hname⟩ := hbuilt.aliases_underscored i hi
    refine ⟨other, u, n, hle other u hu, hpath, hname, ?_⟩
    have hpackage := hlibrary.packaged other u (hle other u hu)
    have halias : u.package.preferredAlias = aliasOf u.package.domain := by
      rw [hpackage]
      exact preferredAlias_eq ho u.document o.packagePrefix
    rw [hname, halias, Naming.isIdentifier_underscored (aliasOf_ne_empty _)]

namespace Sample

/-- A file with a namespace and nothing else. -/
def goModule (file domain : String) : Tree where
  document := { Document.empty file with namespaces := [⟨"go", domain⟩] }
  includes := []

/-- A file that includes two modules of one name, and one whose name begins with a digit. -/
def atlas : Tree where
  document := .empty "atlas.thrift"
  includes := [⟨"north.thrift", true, goModule "north.thrift" "north.Größe"⟩,
    ⟨"south.thrift", true, goModule "south.thrift" "south.größe"⟩,
    ⟨"fast.thrift", true, goModule "fast.thrift" "map.2fast"⟩]

end Sample

set_option maxRecDepth 100000 in
/-- The second of the modules of one name is imported with an underscore, and its alias is still an
identifier. -/
theorem alias_spelled_iff_atlas : Options.language {} ≠ .openApi ∧
    ∃ s, ∃ i ∈ s.linkage.imports.imports,
      ((Run.new {}).serveAll [.build Sample.atlas]).library.scope? "atlas.thrift" = some s ∧
      i.name = "größe_" ∧ Naming.isIdentifier i.name = true ∧
      ∃ other u, ((Run.new {}).serveAll [.build Sample.atlas]).library.scope? other = some u ∧
        i.path = u.package.path ∧ Naming.isIdentifier u.package.preferredAlias = true := by
  have hlanguage : Options.language {} ≠ .openApi := by decide
  have hfound : (((Run.new {}).serveAll [.build Sample.atlas]).library.scope? "atlas.thrift").any
      (fun s => s.linkage.imports.imports.any fun i => i.name == "größe_") = true := by
    decide +kernel
  obtain ⟨s, hs, hfound⟩ := (Option.any_eq_true _ _).mp hfound
  simp only [List.any_eq_true, beq_iff_eq] at hfound
  obtain ⟨i, hi, hname⟩ := hfound
  obtain ⟨-, hfiles⟩ := alias_spelled_iff {} hlanguage [.build Sample.atlas]
  obtain ⟨other, u, n, hu, hpath, -, hsame⟩ := hfiles "atlas.thrift" s hs i hi
  have hspelled : Naming.isIdentifier i.name = true := by
    rw [hname]
    decide +kernel
  exact ⟨hlanguage, s, i, hi, hs, hname, hspelled, other, u, hu, hpath, hsame.mp hspelled⟩

set_option maxRecDepth 100000 in
/-- A namespace whose last segment begins with a digit has an alias that is no identifier, and so
has the stem of a file with a superscript; the first of them is imported under it. -/
theorem alias_unspelled :
    (Language.go.package (Sample.goModule "fast.thrift" "map.2fast").document "").preferredAlias =
        "2fast" ∧ Naming.isIdentifier "2fast" = false ∧
      (Language.typescript.package (.empty "m².thrift") "").preferredAlias = "m²" ∧
      Naming.isIdentifier "m²" = false ∧
      ∃ s, ∃ i ∈ s.linkage.imports.imports,
        ((Run.new {}).serveAll [.build Sample.atlas]).library.scope? "atlas.thrift" = some s ∧
          i.name = "2fast" ∧ i.path = "map/2fast" := by
  have hfound : (((Run.new {}).serveAll [.build Sample.atlas]).library.scope? "atlas.thrift").any
      (fun s => s.linkage.imports.imports.any fun i =>
        i.name == "2fast" && i.path == "map/2fast") = true := by
    decide +kernel
  obtain ⟨s, hs, hfound⟩ := (Option.any_eq_true _ _).mp hfound
  simp only [List.any_eq_true, Bool.and_eq_true, beq_iff_eq] at hfound
  obtain ⟨i, hi, hname, hpath⟩ := hfound
  refine ⟨by decide +kernel, by decide +kernel, by decide +kernel, by decide +kernel, s, i, hi, hs,
    hname, hpath⟩

end IdlScope

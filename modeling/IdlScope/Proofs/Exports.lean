import IdlScope.Proofs.Accounts
import IdlScope.Proofs.Aliases

/-!
# Exports — what an exported name begins and ends with

An exported name begins with the upper case of a character and ends inside of a word. So it tells
what was put in front of it and behind it: no exported name begins like a table of field numbers,
and the underscores at the end of a name are those that it got when it had to give way.

* **`Unicode.eq_of_mem_upper`** — the signs behind the capitals of ASCII are the upper case of
  themselves only, and the small letters are that of nothing.
* **`Naming.exported_of_identify`** — how every exported name begins and ends.
* **`NameTable.underscored_inj`** — names that end in no underscore are told from each other with
  underscores behind them, and so is how many they got.
* **`GlobalRole.identifier_eq`** — names made from two names meet in one way only: what constructs
  one of them is what the other is called.
-/

namespace IdlScope

/-! ## Upper case -/

namespace Unicode

set_option maxRecDepth 10000 in
/-- The rows lead to capitals of ASCII or out of it. -/
theorem image_of_mem_upperRows :
    ∀ row ∈ upperRows, row.image + row.count * row.step ≤ 91 ∨ 128 ≤ row.image := by decide

set_option maxRecDepth 10000 in
/-- So do the characters that grow. -/
theorem image_of_mem_upperGrowing :
    ∀ e ∈ upperGrowing, e.2 ≠ [] ∧ ∀ n ∈ e.2, n ≤ 90 ∨ 128 ≤ n := by decide

theorem upper_ne_nil (c : Char) : upper c ≠ [] := by
  rw [upper]
  split
  · exact List.cons_ne_nil _ _
  · rw [mapCase]
    split
    · next image himage =>
      intro hnil
      have hgrowing := image_of_mem_upperGrowing _ (mem_of_lookup himage)
      exact hgrowing.1 (List.map_eq_nil_iff.mp hnil)
    · split <;> exact List.cons_ne_nil _ _

theorem isLower_iff {c : Char} : c.isLower = true ↔ 'a'.val ≤ c.val ∧ c.val ≤ 'z'.val :=
  Bool.and_eq_true_iff.trans (and_congr decide_eq_true_iff decide_eq_true_iff)

theorem toNat_of_isLower {c : Char} (h : c.isLower = true) : 97 ≤ c.toNat ∧ c.toNat ≤ 122 := by
  obtain ⟨hfirst, hlast⟩ := isLower_iff.mp h
  exact ⟨UInt32.le_iff_toNat_le.mp hfirst, UInt32.le_iff_toNat_le.mp hlast⟩

theorem eq_of_toUpper {c d : Char} (hc : 90 < c.toNat) (h : c = d.toUpper) :
    d = c ∧ c.isLower = false := by
  by_cases hlower : d.isLower = true
  · -- a small letter has its upper case among the capitals
    have hupper : d.toUpper = ⟨d.val + ('A'.val - 'a'.val), _⟩ := dif_pos (isLower_iff.mp hlower)
    have heq : c.toNat = (d.val + ('A'.val - 'a'.val)).toNat := by
      rw [h, hupper]
      rfl
    obtain ⟨hfirst, hlast⟩ : 97 ≤ d.val.toNat ∧ d.val.toNat ≤ 122 := toNat_of_isLower hlower
    rw [heq, UInt32.toNat_add, show ('A'.val - 'a'.val).toNat = 4294967264 from rfl] at hc
    omega
  · have hsame : d.toUpper = d := dif_neg fun hsmall => hlower (isLower_iff.mpr hsmall)
    rw [hsame] at h
    subst h
    exact ⟨rfl, Bool.eq_false_iff.mpr hlower⟩

/-- The signs behind the capitals of ASCII are the upper case of themselves only, and no small
letter is one. -/
theorem eq_of_mem_upper {c d : Char} (hfirst : 90 < c.toNat) (hlast : c.toNat < 128)
    (h : c ∈ upper d) : d = c ∧ c.isLower = false := by
  rw [upper] at h
  by_cases hascii : d.toNat < 128
  · rw [if_pos hascii, List.mem_singleton] at h
    exact eq_of_toUpper hfirst h
  · rw [if_neg hascii] at h
    obtain rfl | ⟨n, heq, htable⟩ := mem_mapCase h
    · -- what has no other upper case is out of ASCII
      exact absurd hlast hascii
    · have hfar : n ≤ 90 ∨ 128 ≤ n := by
        rcases htable with ⟨e, he, hn⟩ | ⟨row, hrow, hn⟩
        · exact (image_of_mem_upperGrowing e he).2 n hn
        · have := image_of_mem_upperRows row hrow
          omega
      exact absurd heq (ofNat_ne (by omega) (by omega))

end Unicode

/-! ## Exported names -/

namespace Naming

/-- A name that begins with no small letter of ASCII and does not end in an underscore. -/
structure Exported (name : String) : Prop where
  nonempty : name.toList ≠ []
  first : ∀ c ∈ name.toList.head?, c.isLower = false
  last : '_' ∉ name.toList.getLast?

theorem upperFirstChars_ne_nil {word : List Char} (h : word ≠ []) : upperFirstChars word ≠ [] := by
  obtain ⟨c, rest, rfl⟩ := List.exists_cons_of_ne_nil h
  exact List.append_ne_nil_of_left_ne_nil (Unicode.upper_ne_nil c) rest

theorem underscore_not_mem_upperFirstChars {word : List Char} (h : '_' ∉ word) :
    '_' ∉ upperFirstChars word := by
  cases word with
  | nil => exact h
  | cons c rest =>
      intro hmem
      rcases List.mem_append.mp hmem with hmem | hmem
      · obtain ⟨rfl, -⟩ := Unicode.eq_of_mem_upper (by decide) (by decide) hmem
        exact h List.mem_cons_self
      · exact h (List.mem_cons_of_mem _ hmem)

/-- A word has characters, and no underscore. -/
theorem word_of_mem_words {s word : List Char} (h : word ∈ words s) :
    word ≠ [] ∧ '_' ∉ word := by
  obtain ⟨hpart, hnonempty⟩ := List.mem_filter.mp h
  exact ⟨by simpa using hnonempty, (splitOn_segments '_' '_' s).1 word hpart⟩

/-- Words go behind a name. -/
theorem prefix_foldl_appendWord (ws : List (List Char)) (name : List Char) :
    name <+: ws.foldl appendWord name := by
  induction ws generalizing name with
  | nil => exact List.prefix_refl _
  | cons w ws ih =>
      refine List.IsPrefix.trans ?_ (ih (appendWord name w))
      rw [appendWord, List.append_assoc]
      exact List.prefix_append _ _

theorem first_foldl_appendWord {ws : List (List Char)} (hws : ∀ w ∈ ws, w ≠ []) :
    ∀ c ∈ (ws.foldl appendWord []).head?, c.isLower = false := by
  cases ws with
  | nil => exact fun c hc => nomatch hc
  | cons w ws =>
      intro c hc
      by_contra hlower
      obtain ⟨hleast, hlast⟩ := Unicode.toNat_of_isLower (Bool.eq_true_of_not_eq_false hlower)
      obtain ⟨d, rest, rfl⟩ := List.exists_cons_of_ne_nil (hws w List.mem_cons_self)
      -- the first character is one of those that the upper case of the first word begins with
      obtain ⟨behind, heq⟩ := prefix_foldl_appendWord ws (appendWord [] (d :: rest))
      have hfirst : appendWord [] (d :: rest) = Unicode.upper d ++ rest := by
        simp [appendWord, upperFirstChars]
      rw [List.foldl_cons, ← heq, hfirst, List.append_assoc,
        List.head?_append_of_ne_nil _ (Unicode.upper_ne_nil d)] at hc
      exact hlower (Unicode.eq_of_mem_upper (by omega) (by omega) (List.mem_of_mem_head? hc)).2

theorem last_foldl_appendWord {ws : List (List Char)} (hws : ∀ w ∈ ws, w ≠ [] ∧ '_' ∉ w) :
    '_' ∉ (ws.foldl appendWord []).getLast? := by
  rcases List.eq_nil_or_concat ws with rfl | ⟨front, w, rfl⟩
  · exact fun h => nomatch h
  · rw [List.concat_eq_append] at hws ⊢
    obtain ⟨hne, hgap⟩ := hws w (List.mem_append_right _ (List.mem_singleton_self w))
    rw [List.foldl_append, List.foldl_cons, List.foldl_nil, appendWord,
      List.getLast?_append_of_ne_nil _ (upperFirstChars_ne_nil hne)]
    exact fun hmem => underscore_not_mem_upperFirstChars hgap (List.mem_of_mem_getLast? hmem)

/-- **How every exported name begins and ends.** -/
theorem exported_of_identify {raw name : String} (h : identify raw = some name) :
    Exported name := by
  simp only [identify] at h
  split at h
  · next hvalid =>
    obtain rfl := Option.some.inj h
    have hwords : ∀ w ∈ words (raw.toList.dropWhile (· == mark)), w ≠ [] ∧ '_' ∉ w :=
      fun w => word_of_mem_words
    constructor
    all_goals rw [String.toList_ofList]
    · intro hnil
      rw [hnil] at hvalid
      cases hvalid
    · exact first_foldl_appendWord fun w hw => (hwords w hw).1
    · exact last_foldl_appendWord hwords
  · cases h

/-- A word in front changes nothing at the end. -/
theorem Exported.last_behind {name : String} (h : Exported name) (word : String) :
    '_' ∉ (word ++ name).toList.getLast? := by
  rw [String.toList_append, List.getLast?_append_of_ne_nil _ h.nonempty]
  exact h.last

end Naming

/-! ## Underscores behind a name -/

namespace NameTable

theorem underscored_succ_eq_push (n : Nat) (name : String) :
    underscored (n + 1) name = (underscored n name).push '_' :=
  Function.iterate_succ_apply' _ n name

theorem underscored_underscored (m n : Nat) (name : String) :
    underscored m (underscored n name) = underscored (m + n) name :=
  (Function.iterate_add_apply _ m n name).symm

/-- A word goes in front of a name and its underscores. -/
theorem append_underscored (word name : String) (n : Nat) :
    word ++ underscored n name = underscored n (word ++ name) := by
  induction n with
  | zero => rfl
  | succ n ih =>
      rw [underscored_succ_eq_push, underscored_succ_eq_push, ← ih, ← String.toList_inj]
      simp

theorem head?_underscored {name : String} (h : name.toList ≠ []) (n : Nat) :
    (underscored n name).toList.head? = name.toList.head? := by
  induction n with
  | zero => rfl
  | succ n ih =>
      rw [underscored_succ_eq_push, String.toList_push, List.head?_append, ih]
      exact Option.or_of_isSome (List.isSome_head?.mpr h)

theorem underscore_mem_getLast?_underscored (n : Nat) (name : String) :
    '_' ∈ (underscored (n + 1) name).toList.getLast? := by
  rw [underscored_succ_eq_push, String.toList_push]
  exact List.getLast?_concat

/-- Names that end in no underscore can be told with underscores behind them. -/
theorem underscored_inj {m n : Nat} {name name' : String} (hname : '_' ∉ name.toList.getLast?)
    (hname' : '_' ∉ name'.toList.getLast?) (h : underscored m name = underscored n name') :
    m = n ∧ name = name' := by
  induction m generalizing n with
  | zero =>
      cases n with
      | zero => exact ⟨rfl, h⟩
      | succ n =>
          rw [underscored_zero] at h
          exact absurd (h ▸ underscore_mem_getLast?_underscored n name') hname
  | succ m ih =>
      cases n with
      | zero =>
          rw [underscored_zero] at h
          exact absurd (h ▸ underscore_mem_getLast?_underscored m name) hname'
      | succ n =>
          rw [underscored_succ_eq_push, underscored_succ_eq_push, String.push_inj] at h
          obtain ⟨heq, rfl⟩ := ih h.1
          exact ⟨congrArg (· + 1) heq, rfl⟩

end NameTable

/-! ## Names made from exported names -/

namespace GlobalRole

open NameTable Naming

variable {role role' : GlobalRole} {n n' : Nat} {name name' : String}

/-- Three kinds of names begin in three ways, but for names that begin like constructors. -/
inductive Meets (n n' : Nat) (name name' : String) : GlobalRole → GlobalRole → Prop
  | same {role : GlobalRole} (hname : name = name') (hn : n = n') : Meets n n' name name' role role
  /-- The second name is what constructs the first one. -/
  | constructed (hname : name' = constructorOf name) (hn : n = n') :
    Meets n n' name name' .constructor .own
  /-- The first name is what constructs the second one. -/
  | constructs (hname : name = constructorOf name') (hn : n = n') :
    Meets n n' name name' .own .constructor

theorem meets_own_constructor (h : Exported name) (h' : Exported name')
    (heq : underscored n name = constructorOf (underscored n' name')) :
    n = n' ∧ name = constructorOf name' := by
  rw [constructorOf, append_underscored] at heq
  exact underscored_inj h.last (h'.last_behind "New") heq

/-- A name does not begin like a table of field numbers. -/
theorem own_ne_idTable (h : Exported name) : underscored n name ≠ idTableOf name' := by
  intro heq
  have hhead := congrArg (fun s : String => s.toList.head?) heq
  rw [head?_underscored h.nonempty, idTableOf, String.toList_append] at hhead
  exact absurd (h.first 'f' hhead) (by decide)

theorem constructor_ne_idTable : constructorOf name ≠ idTableOf name' := by
  intro heq
  have hhead := congrArg (fun s : String => s.toList.head?) heq
  rw [constructorOf, idTableOf, String.toList_append, String.toList_append] at hhead
  exact absurd (Option.some.inj hhead) (by decide)

/-- **Names made from two names meet in one way only**: what constructs one of them is what the
other is called. -/
theorem identifier_eq (hrole : role ∈ ofStructure) (hrole' : role' ∈ ofStructure)
    (h : Exported name) (h' : Exported name')
    (heq : role.identifier (underscored n name) = role'.identifier (underscored n' name')) :
    Meets n n' name name' role role' := by
  have hsame : underscored n name = underscored n' name' → n = n' ∧ name = name' :=
    underscored_inj h.last h'.last
  cases role with
  | client | processor => exact absurd hrole (by decide)
  | own =>
      cases role' with
      | client | processor => exact absurd hrole' (by decide)
      | own => exact .same (hsame heq).2 (hsame heq).1
      | constructor =>
          obtain ⟨hn, hname⟩ := meets_own_constructor h h' heq
          exact .constructs hname hn
      | idTable => exact absurd heq (own_ne_idTable h)
  | constructor =>
      cases role' with
      | client | processor => exact absurd hrole' (by decide)
      | own =>
          obtain ⟨hn, hname⟩ := meets_own_constructor h' h heq.symm
          exact .constructed hname hn.symm
      | constructor =>
          obtain ⟨hn, hname⟩ := hsame ((String.append_right_inj _).mp heq)
          exact .same hname hn
      | idTable => exact absurd heq constructor_ne_idTable
  | idTable =>
      cases role' with
      | client | processor => exact absurd hrole' (by decide)
      | own => exact absurd heq.symm (own_ne_idTable h')
      | constructor => exact absurd heq.symm constructor_ne_idTable
      | idTable =>
          obtain ⟨hn, hname⟩ := hsame ((String.append_right_inj _).mp heq)
          exact .same hname hn

end GlobalRole

end IdlScope

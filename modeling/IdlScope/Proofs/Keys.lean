import IdlScope.Naming.Identifier
import Mathlib.Data.List.Basic
import Mathlib.Data.List.Nodup
import Mathlib.Data.List.TakeWhile

/-!
# Keys — what a name is allocated for

The keys of a name table are source names, and words put before source names: `$new:Item` is
the key of what constructs `Item`. A source name that can be exported holds none of the
characters that keys are put together with, so a key tells what it was made from:

* **`not_mem_of_identify`** — characters that no identifier holds are in no name that
  `identify` accepts, apart from the mark in front and the underscores between words.
* **`beforeDot_append_dot`** — a name without a dot is told by what it stands in front of.
* **`tagged_inj`** — keys without a colon in word and source differ in one of the two.
* **`nodup_tagged`** — so the keys of different sources under different words differ.
-/

namespace IdlScope.Naming

/-! ## Names that can be exported -/

/-- What is not the separator is in one of the parts. -/
theorem exists_mem_splitOn {c sep : Char} (hne : c ≠ sep) {cs : List Char} (h : c ∈ cs) :
    ∃ part ∈ cs.splitOn sep, c ∈ part := by
  induction cs with
  | nil => exact absurd h List.not_mem_nil
  | cons d cs ih =>
      rw [List.splitOn, List.splitOnP_cons_eq_if_modifyHead]
      by_cases hd : d = sep
      · rw [if_pos (by simpa using hd)]
        obtain ⟨part, hpart, hc⟩ := ih ((List.mem_cons.mp h).resolve_left (hd ▸ hne))
        exact ⟨part, List.mem_cons_of_mem _ hpart, hc⟩
      · -- the character goes in front of the first part
        rw [if_neg (by simpa using hd)]
        obtain ⟨first, rest, hparts⟩ :=
          List.exists_cons_of_ne_nil (List.splitOnP_ne_nil (· == sep) cs)
        rw [hparts, List.modifyHead_cons]
        rcases List.mem_cons.mp h with rfl | h
        · exact ⟨_, List.mem_cons_self, List.mem_cons_self⟩
        · obtain ⟨part, hpart, hc⟩ := ih h
          rw [List.splitOn, hparts] at hpart
          rcases List.mem_cons.mp hpart with rfl | hpart
          · exact ⟨_, List.mem_cons_self, List.mem_cons_of_mem _ hc⟩
          · exact ⟨part, List.mem_cons_of_mem _ hpart, hc⟩

theorem mem_upperFirstChars {c : Char} (hc : Unicode.upper c = [c]) {cs : List Char}
    (h : c ∈ cs) : c ∈ upperFirstChars cs := by
  cases cs with
  | nil => exact absurd h List.not_mem_nil
  | cons d cs =>
      rw [upperFirstChars]
      rcases List.mem_cons.mp h with rfl | h
      · rw [hc]
        exact List.mem_append_left _ (List.mem_singleton_self _)
      · exact List.mem_append_right _ h

/-- A character that has no other upper case stays in the exported name. -/
theorem mem_foldl_appendWord {c : Char} (hc : Unicode.upper c = [c]) {ws : List (List Char)}
    {name : List Char} (h : c ∈ name ∨ ∃ w ∈ ws, c ∈ w) : c ∈ ws.foldl appendWord name := by
  induction ws generalizing name with
  | nil => exact h.resolve_right fun ⟨_, hw, _⟩ => absurd hw List.not_mem_nil
  | cons w ws ih =>
      refine ih ?_
      rcases h with h | ⟨v, hv, hcv⟩
      · exact .inl (List.mem_append_left _ (List.mem_append_left _ h))
      · rcases List.mem_cons.mp hv with rfl | hv
        · exact .inl (List.mem_append_right _ (mem_upperFirstChars hc hcv))
        · exact .inr ⟨v, hv, hcv⟩

theorem isXidContinue_of_mem {cs : List Char} (h : isIdentifierChars cs = true) {c : Char}
    (hc : c ∈ cs) : Unicode.isXidContinue c = true := by
  cases cs with
  | nil => cases h
  | cons d cs =>
      obtain ⟨hfirst, hrest⟩ := Bool.and_eq_true_iff.mp h
      rcases List.mem_cons.mp hc with rfl | hc
      · rcases Bool.or_eq_true_iff.mp hfirst with hgap | hstart
        · rw [beq_iff_eq.mp hgap]
          exact Unicode.isXidContinue_underscore
        · exact Unicode.isXidContinue_of_start hstart
      · exact List.all_eq_true.mp hrest c hc

/-- **A name that can be exported has identifier characters only**, but for marks in front and
underscores, and but for characters with another upper case. -/
theorem not_mem_of_identify {raw : String} (h : (identify raw).isSome) {c : Char}
    (hmark : c ≠ mark) (hgap : c ≠ '_') (hupper : Unicode.upper c = [c])
    (hother : Unicode.isXidContinue c = false) : c ∉ raw.toList := by
  intro hc
  rw [identify] at h
  split at h
  · next hvalid =>
    have hdropped : c ∈ raw.toList.dropWhile (· == mark) := by
      rw [← List.takeWhile_append_dropWhile (p := (· == mark)) (l := raw.toList)] at hc
      rcases List.mem_append.mp hc with hc | hc
      · have := List.all_eq_true.mp List.all_takeWhile c hc
        exact absurd (by simpa using this) hmark
      · exact hc
    obtain ⟨w, hw, hcw⟩ := exists_mem_splitOn hgap hdropped
    have hword : w ∈ words (raw.toList.dropWhile (· == mark)) :=
      List.mem_filter.mpr ⟨hw, by simpa using List.ne_nil_of_mem hcw⟩
    have := isXidContinue_of_mem hvalid (mem_foldl_appendWord hupper (.inr ⟨w, hword, hcw⟩))
    rw [hother] at this
    cases this
  · cases h

theorem colon_not_mem {raw : String} (h : (identify raw).isSome) : ':' ∉ raw.toList :=
  not_mem_of_identify h (by decide) (by decide) (by decide) (by decide)

theorem dot_not_mem {raw : String} (h : (identify raw).isSome) : '.' ∉ raw.toList :=
  not_mem_of_identify h (by decide) (by decide) (by decide) (by decide)

/-! ## Names behind a dot -/

/-- The part of a name in front of its first dot. -/
def beforeDot (name : String) : List Char :=
  name.toList.takeWhile (· != '.')

theorem beforeDot_append_dot {name : String} (h : '.' ∉ name.toList) (rest : String) :
    beforeDot (name ++ "." ++ rest) = name.toList := by
  have hall : ∀ c ∈ name.toList, (c != '.') = true := fun c hc =>
    bne_iff_ne.mpr fun heq => h (heq ▸ hc)
  rw [beforeDot, String.append_assoc, String.toList_append, List.takeWhile_append_of_pos hall]
  simp

theorem beforeDot_eq {name : String} (h : '.' ∉ name.toList) :
    beforeDot name = name.toList := by
  rw [beforeDot, List.takeWhile_eq_self_iff]
  exact fun c hc => bne_iff_ne.mpr fun heq => h (heq ▸ hc)

/-! ## Keys with a word -/

/-- The key of a source name, or of what a word says is made from it. -/
def tagged : Option String → String → String
  | none, source => source
  | some word, source => synthetic (word ++ ":" ++ source)

theorem toList_tagged_some (word source : String) :
    (tagged (some word) source).toList = mark :: (word.toList ++ ':' :: source.toList) := by
  simp [tagged, synthetic]

variable {word word' : Option String} {source source' : String}

theorem colon_mem_tagged_some (word source : String) :
    ':' ∈ (tagged (some word) source).toList := by
  rw [toList_tagged_some]
  exact List.mem_cons_of_mem _ (List.mem_append_right _ List.mem_cons_self)

/-- A key tells its word and its source, if neither holds a colon. -/
theorem tagged_inj (hword : ∀ w ∈ word, ':' ∉ w.toList) (hsource : ':' ∉ source.toList)
    (hsource' : ':' ∉ source'.toList)
    (h : tagged word source = tagged word' source') : word = word' ∧ source = source' := by
  cases word with
  | none =>
      cases word' with
      | none => exact ⟨rfl, h⟩
      | some w' =>
          rw [show source = _ from h] at hsource
          exact absurd (colon_mem_tagged_some w' source') hsource
  | some w =>
      cases word' with
      | none =>
          rw [show source' = _ from h.symm] at hsource'
          exact absurd (colon_mem_tagged_some w source) hsource'
      | some w' =>
          have hchars := congrArg String.toList h
          rw [toList_tagged_some, toList_tagged_some, List.cons.injEq,
            List.append_cons_inj_of_notMem (hword w rfl) hsource] at hchars
          obtain ⟨-, hw, -, hs⟩ := hchars
          rw [String.toList_inj.mp hw, String.toList_inj.mp hs]
          exact ⟨rfl, rfl⟩

/-- **The keys of different sources under different words differ.** -/
theorem nodup_tagged {α : Type} {as : List α} (source : α → String)
    (words : α → List (Option String)) (hsources : (as.map source).Nodup)
    (hwords : ∀ a ∈ as, (words a).Nodup) (hsource : ∀ a ∈ as, ':' ∉ (source a).toList)
    (hword : ∀ a ∈ as, ∀ w ∈ words a, ∀ v ∈ w, ':' ∉ v.toList) :
    (as.flatMap fun a => (words a).map (tagged · (source a))).Nodup := by
  rw [List.nodup_flatMap]
  constructor
  · intro a ha
    refine (hwords a ha).map_on fun w hw w' hw' h => ?_
    exact (tagged_inj (hword a ha w hw) (hsource a ha) (hsource a ha) h).1
  · refine (List.pairwise_map.mp hsources).imp_of_mem fun {a b} ha hb hne => ?_
    refine List.disjoint_left.mpr fun key hkey hkey' => ?_
    obtain ⟨w, hw, rfl⟩ := List.mem_map.mp hkey
    obtain ⟨w', hw', h⟩ := List.mem_map.mp hkey'
    exact hne (tagged_inj (hword b hb w' hw') (hsource b hb) (hsource a ha) h).2.symm

end IdlScope.Naming

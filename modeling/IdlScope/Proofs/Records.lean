import IdlScope.Interchange.Decode
import IdlScope.Interchange.Encode
import IdlScope.Proofs.Layouts
import IdlScope.Table

/-!
# Records — a reader undoes an encoding

A reader is given the levels that are left, and an encoding opens a certain number of them.
`Undoes read encode a` says that the reader gives `a` back wherever its encoding may still be
opened. A list, an optional value and a record pass it on from what they hold: the members of an
encoded record are looked up one by one, in the order in which the reader asks for them.

The other direction needs no encoding: `Gives read P` says that whatever the reader gives, however
it was written, is as `P` demands.
-/

namespace IdlScope

open Json (Value)

/-! ## Levels -/

namespace Json.Value

mutual

/-- The levels of arrays and objects that a value opens. -/
def levels : Value → Nat
  | .array vs => itemLevels vs + 1
  | .object ms => memberLevels ms + 1
  | _ => 0
termination_by structural v => v

/-- The levels that the deepest item opens. -/
def itemLevels : List Value → Nat
  | [] => 0
  | v :: vs => max (levels v) (itemLevels vs)
termination_by structural vs => vs

/-- The levels that the deepest member opens. -/
def memberLevels : List (Option String × Value) → Nat
  | [] => 0
  | m :: ms => max (pairLevels m) (memberLevels ms)
termination_by structural ms => ms

/-- The levels that the value of a member opens. -/
def pairLevels : Option String × Value → Nat
  | (_, v) => levels v
termination_by structural m => m

end

theorem levels_le_itemLevels {vs : List Value} {v : Value} (h : v ∈ vs) :
    v.levels ≤ itemLevels vs := by
  induction vs with
  | nil => exact absurd h List.not_mem_nil
  | cons w vs ih =>
      rw [itemLevels]
      rcases List.mem_cons.mp h with rfl | h
      · exact Nat.le_max_left _ _
      · exact Nat.le_trans (ih h) (Nat.le_max_right _ _)

theorem levels_le_memberLevels {ms : List (Option String × Value)} {m : Option String × Value}
    (h : m ∈ ms) : m.2.levels ≤ memberLevels ms := by
  induction ms with
  | nil => exact absurd h List.not_mem_nil
  | cons n ms ih =>
      obtain ⟨key, v⟩ := n
      rw [memberLevels]
      rcases List.mem_cons.mp h with rfl | h
      · exact Nat.le_max_left _ _
      · exact Nat.le_trans (ih h) (Nat.le_max_right _ _)

/-- Where an array may be opened, its items may be opened one level further in. -/
theorem exists_level_of_array {vs : List Value} {level : Nat}
    (h : (Value.array vs).levels ≤ level) :
    ∃ inner, level = inner + 1 ∧ ∀ v ∈ vs, v.levels ≤ inner := by
  rw [levels] at h
  obtain ⟨inner, rfl⟩ := Nat.exists_eq_add_of_le' (Nat.le_of_add_left_le h)
  refine ⟨inner, rfl, ?_⟩
  intro v hv
  exact Nat.le_trans (levels_le_itemLevels hv) (Nat.le_of_succ_le_succ h)

/-- Where a record may be opened, its members may be opened one level further in. -/
theorem exists_level_of_members {ms : List (String × Value)} {level : Nat}
    (h : (ofMembers ms).levels ≤ level) :
    ∃ inner, level = inner + 1 ∧ ∀ m ∈ ms, m.2.levels ≤ inner := by
  rw [ofMembers, levels] at h
  obtain ⟨inner, rfl⟩ := Nat.exists_eq_add_of_le' (Nat.le_of_add_left_le h)
  refine ⟨inner, rfl, ?_⟩
  intro m hm
  have hle := levels_le_memberLevels (List.mem_map_of_mem (f := fun m => (some m.1, m.2)) hm)
  exact Nat.le_trans hle (Nat.le_of_succ_le_succ h)

/-! ## Well-formed data -/

theorem WellFormed.ofString (s : String) : (ofString s).WellFormed := .text s

theorem WellFormed.ofInt (i : Int) : (ofInt i).WellFormed := .number (Numeral.ofInt_wellFormed i)

theorem WellFormed.map {α : Type} {encode : α → Value} {as : List α}
    (h : ∀ a ∈ as, (encode a).WellFormed) : (Value.array (as.map encode)).WellFormed := by
  refine .array ?_
  intro v hv
  obtain ⟨a, ha, rfl⟩ := List.mem_map.mp hv
  exact h a ha

theorem WellFormed.ofMembers {ms : List (String × Value)} (h : ∀ m ∈ ms, m.2.WellFormed) :
    (ofMembers ms).WellFormed := by
  refine .object ?_ ?_
  all_goals
    intro m hm
    obtain ⟨n, hn, rfl⟩ := List.mem_map.mp hm
  · rfl
  · exact h n hn

end Json.Value

namespace Interchange

theorem wellFormed_encodeOption {α : Type} {encode : α → Value} {o : Option α}
    (h : ∀ a ∈ o, (encode a).WellFormed) : (encodeOption encode o).WellFormed := by
  cases o with
  | none => exact .null
  | some a => exact h a rfl

/-! ## Readers that undo encodings -/

variable {α β : Type}

/-- The reader gives `a` back wherever its encoding may be opened. -/
def Undoes (read : Reader α) (encode : α → Value) (a : α) : Prop :=
  ∀ level, (encode a).levels ≤ level → read level (encode a) = some a

/-- A list of encodings. -/
def encodeList (encode : α → Value) (as : List α) : Value :=
  .array (as.map encode)

theorem undoes_text (s : String) : Undoes readText .ofString s := fun _ _ => rfl

theorem undoes_bool (b : Bool) : Undoes readBool .bool b := fun _ _ => rfl

/-- Does a signed number of so many bits reach the integer? -/
def inBits (bits : Nat) (i : Int) : Bool :=
  let bound : Int := Nat.pow 2 (bits - 1)
  decide (-bound ≤ i ∧ i < bound)

theorem undoes_int {bits : Nat} {i : Int} (h : inBits bits i = true) :
    Undoes (readInt bits) .ofInt i := by
  intro level _
  show (Json.Numeral.ofInt i).int?.bind _ = _
  rw [Json.Numeral.int?_ofInt, Option.bind_some]
  exact if_pos (of_decide_eq_true h)

theorem undoes_spelling {ofSpelling? : String → Option α} (spelling : α → String) {a : α}
    (h : ofSpelling? (spelling a) = some a) :
    Undoes (readSpelling ofSpelling?) (fun a => .ofString (spelling a)) a :=
  fun _ _ => h

theorem ofMembers_ne_null (ms : List (String × Value)) : Value.ofMembers ms ≠ .null := by
  intro h
  cases h

theorem ofString_ne_null (s : String) : Value.ofString s ≠ .null := by
  intro h
  cases h

theorem bool_ne_null (b : Bool) : Value.bool b ≠ .null := by
  intro h
  cases h

theorem readOption_of_ne_null {read : Reader α} {level : Nat} {v : Value} (h : v ≠ .null) :
    readOption read level v = (read level v).map some := by
  rw [readOption.eq_def]
  split
  · exact absurd rfl h
  · rfl

/-- An optional value comes back if no value is written as `null`. -/
theorem undoes_option {read : Reader α} {encode : α → Value} (hnull : ∀ a, encode a ≠ .null)
    {o : Option α} (h : ∀ a ∈ o, Undoes read encode a) :
    Undoes (readOption read) (encodeOption encode) o := by
  intro level hlevel
  cases o with
  | none => rfl
  | some a =>
      show readOption read level (encode a) = _
      rw [readOption_of_ne_null (hnull a), h a rfl level hlevel]
      rfl

theorem mapM_undoes {f : Value → Option α} {encode : α → Value} {as : List α}
    (h : ∀ a ∈ as, f (encode a) = some a) : (as.map encode).mapM f = some as := by
  induction as with
  | nil => rfl
  | cons a as ih =>
      rw [List.map_cons, List.mapM_cons, h a List.mem_cons_self,
        ih fun b hb => h b (List.mem_cons_of_mem _ hb)]
      rfl

theorem undoes_list {read : Reader α} {encode : α → Value} {as : List α}
    (h : ∀ a ∈ as, Undoes read encode a) : Undoes (readList read) (encodeList encode) as := by
  intro level hlevel
  obtain ⟨inner, rfl, hinner⟩ := Value.exists_level_of_array hlevel
  refine mapM_undoes ?_
  intro a ha
  exact h a ha inner (hinner _ (List.mem_map_of_mem ha))

/-! ## Members -/

/-- A step that is known to succeed. -/
theorem bind_eq {x : Option α} {f : α → Option β} {a : α} {b : Option β} (hx : x = some a)
    (hf : f a = b) : x.bind f = b := by
  rw [hx]
  exact hf

theorem knownMembers_map {known : List String} {ms : Members} (h : ∀ m ∈ ms, m.1 ∈ known) :
    knownMembers known (ms.map fun m => (some m.1, m.2)) = some ms := by
  induction ms with
  | nil => rfl
  | cons m ms ih =>
      rw [List.map_cons, knownMembers, ih fun n hn => h n (List.mem_cons_of_mem _ hn),
        Option.map_some, if_pos (List.contains_iff_mem.mpr (h m List.mem_cons_self))]

/-- An encoded record is opened to the members it was made of. -/
theorem openRecord_ofMembers {known : List String} {ms : Members} (h : ms.map Prod.fst = known)
    (hdistinct : distinct known = true) : openRecord known (.ofMembers ms) = some ms := by
  subst h
  show (knownMembers _ (ms.map fun m => (some m.1, m.2))).bind _ = _
  rw [knownMembers_map fun m hm => List.mem_map_of_mem hm, Option.bind_some, if_pos hdistinct]

section

variable {ms : Members} {level : Nat} {key : String} {read : Reader α} {encode : α → Value}

theorem levels_le_of_lookup (key : String) (hlevel : ∀ m ∈ ms, m.2.levels ≤ level) {v : Value}
    (hv : ms.lookup key = some v) : v.levels ≤ level :=
  hlevel (key, v) (mem_of_lookup hv)

theorem required_eq (hlevel : ∀ m ∈ ms, m.2.levels ≤ level) {a : α} (h : Undoes read encode a)
    (hv : ms.lookup key = some (encode a)) : required ms level key read = some a := by
  rw [required, hv]
  exact h level (levels_le_of_lookup key hlevel hv)

theorem withDefault_eq (hlevel : ∀ m ∈ ms, m.2.levels ≤ level) {a default : α}
    (h : Undoes read encode a) (hv : ms.lookup key = some (encode a)) :
    withDefault ms level key default read = some a := by
  rw [withDefault, hv]
  exact h level (levels_le_of_lookup key hlevel hv)

theorem listOf_eq (hlevel : ∀ m ∈ ms, m.2.levels ≤ level) {as : List α}
    (h : ∀ a ∈ as, Undoes read encode a) (hv : ms.lookup key = some (.array (as.map encode))) :
    listOf ms level key read = some as :=
  withDefault_eq hlevel (undoes_list h) hv

theorem optional_eq (hlevel : ∀ m ∈ ms, m.2.levels ≤ level) {o : Option α}
    (h : ∀ a ∈ o, Undoes read encode a) (hnull : ∀ a, encode a ≠ .null)
    (hv : ms.lookup key = some (encodeOption encode o)) :
    optional ms level key read = some o :=
  withDefault_eq hlevel (undoes_option hnull h) hv

end

/-! ## What readers give -/

/-- Whatever the reader gives passes the test. -/
def Gives (read : Reader α) (p : α → Bool) : Prop :=
  ∀ {level : Nat} {v : Value} {a : α}, read level v = some a → p a = true

theorem gives_int (bits : Nat) : Gives (readInt bits) (inBits bits) := by
  intro level v i h
  cases v with
  | number n =>
      obtain ⟨j, -, hj⟩ := Option.bind_eq_some_iff.mp h
      obtain ⟨hbits, hj⟩ := Option.ite_none_right_eq_some.mp hj
      exact Option.some.inj hj ▸ decide_eq_true hbits
  | _ => cases h

section

variable {read : Reader α} {p : α → Bool}

theorem all_of_mapM {f : β → Option α} {bs : List β} {as : List α}
    (h : ∀ b ∈ bs, ∀ a, f b = some a → p a = true) (has : bs.mapM f = some as) :
    as.all p = true := by
  induction bs generalizing as with
  | nil =>
      cases Option.some.inj has
      rfl
  | cons b bs ih =>
      rw [List.mapM_cons] at has
      obtain ⟨a, ha, has⟩ := Option.bind_eq_some_iff.mp has
      obtain ⟨as, htail, has⟩ := Option.bind_eq_some_iff.mp has
      cases Option.some.inj has
      rw [List.all_cons, h b List.mem_cons_self a ha,
        ih (fun c hc => h c (List.mem_cons_of_mem _ hc)) htail]
      rfl

theorem gives_list (h : Gives read p) : Gives (readList read) (List.all · p) := by
  intro level v as has
  match level, v with
  | level + 1, .array items => exact all_of_mapM (fun _ _ _ ha => h ha) has

theorem gives_option (h : Gives read p) : Gives (readOption read) (Option.all p) := by
  intro level v o ho
  rw [readOption.eq_def] at ho
  split at ho
  · cases Option.some.inj ho
    rfl
  · obtain ⟨a, ha, rfl⟩ := Option.map_eq_some_iff.mp ho
    exact h ha

variable {ms : Members} {level : Nat} {key : String}

theorem required_gives (h : Gives read p) {a : α} (ha : required ms level key read = some a) :
    p a = true := by
  obtain ⟨v, -, hv⟩ := Option.bind_eq_some_iff.mp ha
  exact h hv

theorem withDefault_gives (h : Gives read p) {a default : α} (hdefault : p default = true)
    (ha : withDefault ms level key default read = some a) : p a = true := by
  rw [withDefault] at ha
  split at ha
  · exact Option.some.inj ha ▸ hdefault
  · exact h ha

theorem listOf_gives (h : Gives read p) {as : List α} (has : listOf ms level key read = some as) :
    as.all p = true :=
  withDefault_gives (gives_list h) rfl has

theorem optional_gives (h : Gives read p) {o : Option α}
    (ho : optional ms level key read = some o) : o.all p = true :=
  withDefault_gives (gives_option h) rfl ho

end

end Interchange

end IdlScope

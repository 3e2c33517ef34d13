import IdlScope.Proofs.Rosters
import Mathlib.Algebra.BigOperators.Group.List.Basic
import Mathlib.Algebra.GroupWithZero.Nat

/-!
# Packing — how many bytes fields take in the order of their alignment

The size of a field is a multiple of its alignment, and of two alignments the smaller one divides
the larger one. So fields whose alignments do not rise leave no bytes unused between them, and a
structure cannot do with fewer bytes than its fields have, rounded up to what all of it is aligned
to.

* **`structSize_of_falling`**, **`roundUp_totalSize_le_structSize`** — what such fields take, and
  that no fields take less.
* **`falling_arrange`**, **`filter_arrange`** — `arrange` is a stable sort.
* **`arrangeSlots_packs`** — so the slots of a structure end up in an order that takes the fewest
  bytes of all, and a report tells the bytes exactly if it is another order.
-/

namespace IdlScope

/-! ## Rounding up -/

section Rounding

variable {n m step : Nat}

theorem dvd_roundUp (n step : Nat) : step ∣ roundUp n step :=
  Nat.dvd_mul_left _ _

theorem le_roundUp (hstep : 0 < step) (n : Nat) : n ≤ roundUp n step := by
  have hdiv := Nat.div_add_mod (n + step - 1) step
  have hmod := Nat.mod_lt (n + step - 1) hstep
  rw [roundUp, Nat.mul_comm]
  omega

/-- Of the multiples of the step, it is the least one that is not below. -/
theorem roundUp_le_iff (hstep : 0 < step) (hdvd : step ∣ m) : roundUp n step ≤ m ↔ n ≤ m := by
  constructor
  · exact (le_roundUp hstep n).trans
  · intro h
    obtain ⟨k, rfl⟩ := hdvd
    rw [roundUp, Nat.mul_comm step k]
    refine Nat.mul_le_mul_right step ?_
    have hlt : n + step - 1 < step * (k + 1) := by
      rw [Nat.mul_add, Nat.mul_one]
      omega
    exact Nat.le_of_lt_succ (Nat.div_lt_of_lt_mul hlt)

theorem roundUp_mono (hstep : 0 < step) (h : n ≤ m) : roundUp n step ≤ roundUp m step :=
  (roundUp_le_iff hstep (dvd_roundUp m step)).mpr (h.trans (le_roundUp hstep m))

/-- Multiples of the step stay as they are. -/
theorem roundUp_of_dvd (hstep : 0 < step) (hdvd : step ∣ n) : roundUp n step = n :=
  Nat.le_antisymm ((roundUp_le_iff hstep hdvd).mpr le_rfl) (le_roundUp hstep n)

/-- Whole steps in front do not matter. -/
theorem roundUp_add (hstep : 0 < step) {whole : Nat} (hdvd : step ∣ whole) (n : Nat) :
    roundUp (whole + n) step = whole + roundUp n step := by
  obtain ⟨k, rfl⟩ := hdvd
  have hsum : step * k + n + step - 1 = step * k + (n + step - 1) := by omega
  rw [roundUp, roundUp, hsum, Nat.mul_add_div hstep, Nat.add_mul, Nat.mul_comm k]

theorem roundUp_add_le (hstep : 0 < step) :
    roundUp (n + m) step ≤ roundUp n step + roundUp m step := by
  rw [roundUp_le_iff hstep (Nat.dvd_add (dvd_roundUp n step) (dvd_roundUp m step))]
  exact Nat.add_le_add (le_roundUp hstep n) (le_roundUp hstep m)

end Rounding

/-! ## Alignments -/

/-- Alignments are powers of two, so the smaller of two divides the larger. -/
theorem dvd_of_alignments {n m : Nat} (hn : n ∈ [8, 4, 2, 1]) (hm : m ∈ [8, 4, 2, 1])
    (h : n ≤ m) : n ∣ m := by
  have hchain : ∀ n ∈ [8, 4, 2, 1], ∀ m ∈ [8, 4, 2, 1], n ≤ m → n ∣ m := by decide
  exact hchain n hn m hm h

namespace FieldDecl

variable (f : FieldDecl)

theorem alignment_pos : 0 < f.alignment := by
  have hpos : ∀ n ∈ [8, 4, 2, 1], 0 < n := by decide
  exact hpos _ f.alignment_mem

theorem alignment_dvd_byteSize : f.alignment ∣ f.byteSize := by
  rw [alignment, byteSize]
  split
  · decide
  · cases f.type.category <;> decide

end FieldDecl

variable {fields other : List FieldDecl}

/-- The largest alignment is the least bound of the alignments, and of 1. -/
theorem maxAlignment_le_iff {bound : Nat} :
    maxAlignment fields ≤ bound ↔ 1 ≤ bound ∧ ∀ f ∈ fields, f.alignment ≤ bound := by
  suffices hfold : ∀ start, fields.foldl (fun n f => max n f.alignment) start ≤ bound ↔
      start ≤ bound ∧ ∀ f ∈ fields, f.alignment ≤ bound from hfold 1
  induction fields with
  | nil => simp
  | cons f fields ih =>
      intro start
      rw [List.foldl_cons, ih, Nat.max_le, and_assoc, List.forall_mem_cons]

theorem maxAlignment_pos (fields : List FieldDecl) : 0 < maxAlignment fields :=
  (maxAlignment_le_iff.mp le_rfl).1

theorem alignment_le_maxAlignment {f : FieldDecl} (hf : f ∈ fields) :
    f.alignment ≤ maxAlignment fields :=
  (maxAlignment_le_iff.mp le_rfl).2 f hf

theorem maxAlignment_mem (fields : List FieldDecl) : maxAlignment fields ∈ [8, 4, 2, 1] := by
  suffices hfold : ∀ start ∈ [8, 4, 2, 1],
      fields.foldl (fun n f => max n f.alignment) start ∈ [8, 4, 2, 1] from hfold 1 (by decide)
  induction fields with
  | nil => exact fun start hstart => hstart
  | cons f fields ih =>
      intro start hstart
      rw [List.foldl_cons]
      refine ih _ ?_
      rcases max_choice start f.alignment with hmax | hmax
      · rwa [hmax]
      · rw [hmax]
        exact f.alignment_mem

theorem alignment_dvd_maxAlignment {f : FieldDecl} (hf : f ∈ fields) :
    f.alignment ∣ maxAlignment fields :=
  dvd_of_alignments f.alignment_mem (maxAlignment_mem fields) (alignment_le_maxAlignment hf)

/-- It does not depend on the order of the fields. -/
theorem maxAlignment_perm (h : other.Perm fields) : maxAlignment other = maxAlignment fields := by
  refine eq_of_forall_ge_iff fun bound => ?_
  simp only [maxAlignment_le_iff, h.mem_iff]

/-! ## Offsets -/

/-- The bytes of all fields, without what is unused between them. -/
def totalSize (fields : List FieldDecl) : Nat :=
  (fields.map FieldDecl.byteSize).sum

theorem totalSize_cons (f : FieldDecl) (fields : List FieldDecl) :
    totalSize (f :: fields) = f.byteSize + totalSize fields := by
  rw [totalSize, List.map_cons, List.sum_cons, totalSize]

theorem totalSize_perm (h : other.Perm fields) : totalSize other = totalSize fields :=
  (h.map _).sum_eq

theorem endOffset_cons (offset : Nat) (f : FieldDecl) (fields : List FieldDecl) :
    endOffset offset (f :: fields) =
      endOffset (roundUp offset f.alignment + f.byteSize) fields :=
  rfl

/-- In every order, the fields need their own bytes. -/
theorem add_totalSize_le_endOffset (offset : Nat) (fields : List FieldDecl) :
    offset + totalSize fields ≤ endOffset offset fields := by
  induction fields generalizing offset with
  | nil => exact le_rfl
  | cons f fields ih =>
      have hround := le_roundUp f.alignment_pos offset
      have hrest := ih (roundUp offset f.alignment + f.byteSize)
      rw [totalSize_cons, endOffset_cons]
      omega

/-- No alignment is larger than one before it. -/
def Falling (fields : List FieldDecl) : Prop :=
  fields.Pairwise fun f g => g.alignment ≤ f.alignment

/-- **Where alignments do not rise, nothing is unused.** What is laid out so far ends at a multiple
of the alignment of every field to come: that of the first one divides its size, and those of the
others divide it. -/
theorem endOffset_of_falling {offset : Nat} (h : Falling fields)
    (hoffset : ∀ f ∈ fields, f.alignment ∣ offset) :
    endOffset offset fields = offset + totalSize fields := by
  induction fields generalizing offset with
  | nil => rfl
  | cons f fields ih =>
      obtain ⟨hfirst, hrest⟩ := List.pairwise_cons.mp h
      have hround : roundUp offset f.alignment = offset :=
        roundUp_of_dvd f.alignment_pos (hoffset f List.mem_cons_self)
      have hnext : ∀ g ∈ fields, g.alignment ∣ offset + f.byteSize := by
        intro g hg
        have hdvd : g.alignment ∣ f.alignment :=
          dvd_of_alignments g.alignment_mem f.alignment_mem (hfirst g hg)
        exact Nat.dvd_add (hoffset g (List.mem_cons_of_mem f hg))
          (hdvd.trans f.alignment_dvd_byteSize)
      rw [endOffset_cons, hround, ih hrest hnext, totalSize_cons, Nat.add_assoc]

/-- Falling fields take their own bytes, rounded up. -/
theorem structSize_of_falling (h : Falling fields) :
    structSize fields = roundUp (totalSize fields) (maxAlignment fields) := by
  rw [structSize, endOffset_of_falling h fun f _ => Nat.dvd_zero _, Nat.zero_add]

/-- No order takes less. -/
theorem roundUp_totalSize_le_structSize (fields : List FieldDecl) :
    roundUp (totalSize fields) (maxAlignment fields) ≤ structSize fields := by
  have hle := add_totalSize_le_endOffset 0 fields
  rw [Nat.zero_add] at hle
  exact roundUp_mono (maxAlignment_pos fields) hle

/-- So falling fields take the fewest bytes of all orders. -/
theorem structSize_le_of_perm (hfalling : Falling fields) (h : other.Perm fields) :
    structSize fields ≤ structSize other := by
  calc structSize fields = roundUp (totalSize other) (maxAlignment other) := by
        rw [structSize_of_falling hfalling, totalSize_perm h, maxAlignment_perm h]
    _ ≤ structSize other := roundUp_totalSize_le_structSize other

/-! ## The order of alignment -/

section Arranging

variable {α : Type} (decl : α → FieldDecl) (items : List α)

/-- Arranged items have falling alignments. -/
theorem falling_arrange : Falling ((arrange decl items).map decl) := by
  rw [Falling, List.pairwise_map, arrange_eq_mergeSort]
  exact pairwise_mergeSort_fallsTo decl items

/-- Items of one alignment stay in their order. -/
theorem filter_arrange (n : Nat) :
    (arrange decl items).filter (fun a => (decl a).alignment == n) =
      items.filter fun a => (decl a).alignment == n := by
  rw [arrange_eq_mergeSort]
  exact filter_mergeSort_fallsTo decl items n

end Arranging

/-! ## Slots -/

/-- If no two items have one key, the order of the keys tells that of the items. -/
theorem eq_of_perm_of_map_eq {α β : Type} {key : α → β} {xs ys : List α} (hperm : xs.Perm ys)
    (hkeys : (ys.map key).Nodup) (h : xs.map key = ys.map key) : xs = ys := by
  refine List.ext_getElem hperm.length_eq fun i hx hy => ?_
  have hkey : key xs[i] = key ys[i] := by
    have hget := List.getElem_of_eq h (by rwa [List.length_map] : i < (xs.map key).length)
    rwa [List.getElem_map, List.getElem_map] at hget
  exact List.inj_on_of_nodup_map hkeys (hperm.mem_iff.mp (List.getElem_mem hx))
    (List.getElem_mem hy) hkey

namespace Site

variable (w : Site) (s : StructDecl) (slots : List (Slot NamedField))

theorem arrangeSlots_fst : (w.arrangeSlots s slots).1 = arrange (·.field.decl) slots := by
  rw [arrangeSlots]
  dsimp only
  split <;> rfl

/-- The report is about the numbers of the fields, in order. -/
theorem arrangeSlots_snd :
    let decls (slots : List (Slot NamedField)) := slots.map (·.field.decl)
    let arranged := arrange (·.field.decl) slots
    (w.arrangeSlots s slots).2 =
      if arranged.map (·.field.decl.id) = slots.map (·.field.decl.id) then []
      else [.fieldsReordered w.file s.name (structSize (decls slots))
        (structSize (decls arranged))] := by
  intro decls arranged
  rw [arrangeSlots]
  dsimp only
  rw [List.map_map, List.map_map]
  split <;> rename_i h
  · exact (if_pos h).symm
  · exact (if_neg h).symm

end Site

/-- **Slots are packed as tightly as any order of them could be.** Arranging keeps the slots and,
for each alignment, their order, and no alignment rises. The structure then takes the bytes of its
fields, rounded up to the largest alignment, and no other order of the fields takes less. If the
numbers of the fields differ, there is a report exactly if the order is another one, with the bytes
before and after. -/
theorem arrangeSlots_packs (w : Site) (s : StructDecl) (slots : List (Slot NamedField))
    (hids : (slots.map (·.field.decl.id)).Nodup) :
    let decls (slots : List (Slot NamedField)) := slots.map (·.field.decl)
    let arranged := (w.arrangeSlots s slots).1
    let reports := (w.arrangeSlots s slots).2
    arranged.Perm slots ∧ Falling (decls arranged) ∧
      (∀ n, arranged.filter (·.field.decl.alignment == n) =
        slots.filter (·.field.decl.alignment == n)) ∧
      structSize (decls arranged) =
        roundUp (totalSize (decls slots)) (maxAlignment (decls slots)) ∧
      (∀ other : List FieldDecl, other.Perm (decls slots) →
        structSize (decls arranged) ≤ structSize other) ∧
      (arranged = slots → reports = []) ∧
      (arranged ≠ slots → reports = [.fieldsReordered w.file s.name (structSize (decls slots))
        (structSize (decls arranged))]) := by
  intro decls arranged reports
  have harranged : arranged = arrange (·.field.decl) slots := w.arrangeSlots_fst s slots
  have hperm : arranged.Perm slots := by
    rw [harranged]
    exact perm_arrange _ slots
  have hdecls : (decls arranged).Perm (decls slots) := hperm.map _
  have hfalling : Falling (decls arranged) := by
    rw [harranged]
    exact falling_arrange _ slots
  have hreports := w.arrangeSlots_snd s slots
  rw [← harranged] at hreports
  refine ⟨hperm, hfalling, ?_, ?_, ?_, ?_, ?_⟩
  · rw [harranged]
    exact filter_arrange _ slots
  · rw [structSize_of_falling hfalling, totalSize_perm hdecls, maxAlignment_perm hdecls]
  · intro other hother
    exact structSize_le_of_perm hfalling (hother.trans hdecls.symm)
  · intro hsame
    exact hreports.trans (if_pos (congrArg _ hsame))
  · intro hmoved
    exact hreports.trans (if_neg fun hsame => hmoved (eq_of_perm_of_map_eq hperm hids hsame))

namespace Sample

/-- The slot of a field that has a base type. -/
def plainSlot (id : Int) (name : String) (category : Category) : Slot NamedField where
  field :=
    { decl := ⟨id, name, .default, .named category.spelling category, none, []⟩
      name := name
      propertyName := name
      accessors := []
      isNested := false
      isResponse := false
      origin := none
      tags := none }
  expanded := none

/-- A count between two flags. -/
def flags : List (Slot NamedField) :=
  [plainSlot 1 "a" .bool, plainSlot 2 "b" .i64, plainSlot 3 "c" .bool]

/-- A struct in a file that includes nothing. -/
def packed : Site × StructDecl :=
  (⟨{}, .empty, ⟨.here, ⟨.empty "a.thrift", [], .empty, []⟩⟩⟩,
    ⟨"struct", "Packed", flags.map (·.field.decl), [], none⟩)

end Sample

/-- With the count in front, the flags take 16 bytes instead of 24. -/
theorem arrangeSlots_packs_flags :
    (Sample.flags.map (·.field.decl.id)).Nodup ∧
      ((Sample.packed.1.arrangeSlots Sample.packed.2 Sample.flags).1.map
        (·.field.decl.id)) = [2, 1, 3] ∧
      (Sample.packed.1.arrangeSlots Sample.packed.2 Sample.flags).2 =
        [.fieldsReordered "a.thrift" "Packed" 24 16] := by
  have hids : (Sample.flags.map (·.field.decl.id)).Nodup := by decide
  have horder : (Sample.packed.1.arrangeSlots Sample.packed.2 Sample.flags).1.map
      (·.field.decl.id) = [2, 1, 3] := by
    decide
  obtain ⟨-, -, -, -, -, -, hreport⟩ :=
    arrangeSlots_packs Sample.packed.1 Sample.packed.2 Sample.flags hids
  refine ⟨hids, horder, ?_⟩
  have hmoved : (Sample.packed.1.arrangeSlots Sample.packed.2 Sample.flags).1 ≠ Sample.flags := by
    intro hsame
    rw [hsame] at horder
    exact absurd horder (by decide)
  have hsizes : structSize (Sample.flags.map (·.field.decl)) = 24 ∧
      structSize ((Sample.packed.1.arrangeSlots Sample.packed.2 Sample.flags).1.map
        (·.field.decl)) = 16 := by
    decide
  rw [hreport hmoved, hsizes.1, hsizes.2]
  rfl

end IdlScope

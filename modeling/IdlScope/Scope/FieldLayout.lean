import IdlScope.Idl.Declaration

/-!
# Field layout — the bytes of a structure

Each field takes a size of 1, 2, 4, 8, 16 or 24 bytes and starts at a multiple of its
alignment, which is its size up to 8. Between two fields there may be bytes that nothing
uses; with fields in falling order of alignment there are none, which is the order that
`arrange` puts them in. Alignments are few, so arranging goes through them one by one. It is
the stable sort of the standard library (`arrange_eq_mergeSort`).
-/

namespace IdlScope

namespace FieldDecl

/-- Is the field optional? -/
def isOptional (f : FieldDecl) : Bool :=
  f.requiredness == .optional

/-- The bytes of a field. An optional value is kept behind a pointer. -/
def byteSize (f : FieldDecl) : Nat :=
  if f.isOptional && f.type.category.isBase && f.type.category != .binary then 8
  else
    match f.type.category with
    | .bool | .byte | .i8 => 1
    | .i16 => 2
    | .i32 => 4
    | .i64 | .double | .enum => 8
    | .string => 16
    | .binary | .list | .set => 24
    | _ => 8

/-- What the offset of a field is a multiple of. -/
def alignment (f : FieldDecl) : Nat :=
  min f.byteSize 8

/-- The alignments that there are. -/
theorem alignment_mem (f : FieldDecl) : f.alignment ∈ [8, 4, 2, 1] := by
  rw [alignment, byteSize]
  split
  · decide
  · cases f.type.category <;> decide

end FieldDecl

/-- The least multiple of `step` that is not below `n`. -/
def roundUp (n step : Nat) : Nat :=
  (n + step - 1) / step * step

/-- The offset behind the last field, for fields laid out from `offset` on. -/
def endOffset (offset : Nat) (fields : List FieldDecl) : Nat :=
  fields.foldl (fun n f => roundUp n f.alignment + f.byteSize) offset

/-- The largest alignment, which is 1 without fields. -/
def maxAlignment (fields : List FieldDecl) : Nat :=
  fields.foldl (fun n f => max n f.alignment) 1

/-- The bytes of a structure with the given fields in the given order. -/
def structSize (fields : List FieldDecl) : Nat :=
  roundUp (endOffset 0 fields) (maxAlignment fields)

/-- Items in falling order of alignment, in their old order where alignments are equal. -/
def arrange {α : Type} (decl : α → FieldDecl) (items : List α) : List α :=
  [8, 4, 2, 1].flatMap fun n => items.filter fun a => (decl a).alignment == n

/-! ## Arranging is sorting -/

section Sorting

variable {α : Type}

/-- In a falling list, what has the largest key stands in front of all others. -/
theorem filter_append_filter_of_falling {key : α → Nat} {n : Nat} {items : List α}
    (h : items.Pairwise fun a b => key b ≤ key a) (hn : ∀ a ∈ items, key a ≤ n) :
    items.filter (key · == n) ++ items.filter (key · != n) = items := by
  induction items with
  | nil => rfl
  | cons a items ih =>
      obtain ⟨hfirst, hrest⟩ := List.pairwise_cons.mp h
      obtain ⟨ha, hitems⟩ := List.forall_mem_cons.mp hn
      by_cases hkey : key a = n
      · rw [List.filter_cons_of_pos (by simpa using hkey),
          List.filter_cons_of_neg (by simpa using hkey), List.cons_append, ih hrest hitems]
      · -- behind a smaller key there are only smaller ones
        have hless : ∀ b ∈ a :: items, key b ≠ n := by
          intro b hb
          rcases List.mem_cons.mp hb with rfl | hb
          · exact hkey
          · have := hfirst b hb
            omega
        rw [List.filter_eq_nil_iff.mpr (by simpa using hless),
          List.filter_eq_self.mpr (by simpa using hless), List.nil_append]

/-- A falling list is its classes one after the other. -/
theorem flatMap_filter_of_falling {key : α → Nat} {ns : List Nat}
    (hns : ns.Pairwise fun n m => m < n) {items : List α}
    (h : items.Pairwise fun a b => key b ≤ key a) (hmem : ∀ a ∈ items, key a ∈ ns) :
    (ns.flatMap fun n => items.filter (key · == n)) = items := by
  induction ns generalizing items with
  | nil => exact (List.eq_nil_iff_forall_not_mem.mpr fun a ha =>
      List.not_mem_nil (hmem a ha)).symm
  | cons n ns ih =>
      obtain ⟨hfirst, hrest⟩ := List.pairwise_cons.mp hns
      have hothers : (ns.flatMap fun m => items.filter (key · == m)) =
          ns.flatMap fun m => (items.filter (key · != n)).filter (key · == m) := by
        refine congrArg List.flatten (List.map_congr_left fun m hm => ?_)
        rw [List.filter_filter]
        refine List.filter_congr fun a _ => ?_
        have := hfirst m hm
        by_cases ha : key a = m
        · have hne : m ≠ n := by omega
          simp [ha, hne]
        · simp [ha]
      rw [List.flatMap_cons, hothers, ih hrest (h.filter _) fun a ha => ?_]
      · refine filter_append_filter_of_falling h fun a ha => ?_
        rcases List.mem_cons.mp (hmem a ha) with hkey | hkey
        · exact Nat.le_of_eq hkey
        · exact Nat.le_of_lt (hfirst _ hkey)
      · obtain ⟨ha, hne⟩ := List.mem_filter.mp ha
        exact (List.mem_cons.mp (hmem a ha)).resolve_left (by simpa using hne)

variable (decl : α → FieldDecl) (items : List α)

/-- The larger alignment comes first, and with equal ones either may. -/
def fallsTo (a b : α) : Bool := (decl b).alignment ≤ (decl a).alignment

theorem fallsTo_trans (a b c : α) (hab : fallsTo decl a b = true) (hbc : fallsTo decl b c = true) :
    fallsTo decl a c = true :=
  decide_eq_true (Nat.le_trans (of_decide_eq_true hbc) (of_decide_eq_true hab))

theorem fallsTo_total (a b : α) : (fallsTo decl a b || fallsTo decl b a) = true := by
  rcases Nat.le_total (decl b).alignment (decl a).alignment with h | h <;> simp [fallsTo, h]

theorem pairwise_mergeSort_fallsTo :
    (items.mergeSort (fallsTo decl)).Pairwise fun a b => (decl b).alignment ≤ (decl a).alignment :=
  (List.pairwise_mergeSort (fallsTo_trans decl) (fallsTo_total decl) items).imp of_decide_eq_true

/-- Sorting keeps the order of what has the same alignment. -/
theorem filter_mergeSort_fallsTo (n : Nat) :
    (items.mergeSort (fallsTo decl)).filter (fun a => (decl a).alignment == n) =
      items.filter fun a => (decl a).alignment == n := by
  have hclass : (items.filter fun a => (decl a).alignment == n).Pairwise
      fun a b => fallsTo decl a b = true := by
    refine List.pairwise_iff_forall_sublist.mpr fun {a b} hab => ?_
    have ha := List.mem_filter.mp (hab.subset (List.mem_cons_self))
    have hb := List.mem_filter.mp (hab.subset (List.mem_cons_of_mem _ List.mem_cons_self))
    have ha' := beq_iff_eq.mp ha.2
    have hb' := beq_iff_eq.mp hb.2
    exact decide_eq_true (by omega)
  have hsub := (List.sublist_mergeSort (fallsTo_trans decl) (fallsTo_total decl) hclass
    List.filter_sublist).filter fun a => (decl a).alignment == n
  rw [List.filter_filter] at hsub
  simp only [Bool.and_self] at hsub
  refine (hsub.eq_of_length ?_).symm
  exact ((List.mergeSort_perm items _).filter _).length_eq.symm

/-- **Arranging is the stable sort of the standard library.** -/
theorem arrange_eq_mergeSort : arrange decl items = items.mergeSort (fallsTo decl) := by
  calc arrange decl items
      = [8, 4, 2, 1].flatMap fun n =>
          (items.mergeSort (fallsTo decl)).filter fun a => (decl a).alignment == n := by
        simp only [filter_mergeSort_fallsTo]
        rfl
    _ = items.mergeSort (fallsTo decl) :=
        flatMap_filter_of_falling (by decide) (pairwise_mergeSort_fallsTo decl items)
          fun a _ => (decl a).alignment_mem

end Sorting

end IdlScope

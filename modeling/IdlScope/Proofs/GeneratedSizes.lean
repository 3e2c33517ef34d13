import IdlScope.Proofs.FieldNumbers
import IdlScope.Proofs.Packing
import Mathlib.Data.List.Rotate

/-!
# Generated sizes — what reordering does to a structure with expanded fields

Fields are reordered as they are declared, and a field that expands has the layout of a reference
then. Generated code has other fields in its place, and these may end in the middle of the bytes
that the next field is aligned to.

* **`unusedBytes`** — what is lost behind the fields that stand in place of others.
* **`endOffset_flattened_le`** — slot by slot, laying out reordered fields comes to no more than
  their bytes and the lost ones.
* **`reordering_enlarges_by_unused`** — so in a file of a run that reorders, no order of the
  generated fields is smaller by more than the lost bytes, and the structure that is built without
  reordering has such an order.
* **`reordering_enlarges`** — a structure that does get larger.
-/

namespace IdlScope

/-! ## Moving the start of a layout -/

section Offsets

variable {fields : List FieldDecl}

theorem endOffset_append (offset : Nat) (fields more : List FieldDecl) :
    endOffset offset (fields ++ more) = endOffset (endOffset offset fields) more :=
  List.foldl_append

/-- What starts later does not end earlier. -/
theorem endOffset_mono {offset later : Nat} (h : offset ≤ later) (fields : List FieldDecl) :
    endOffset offset fields ≤ endOffset later fields := by
  induction fields generalizing offset later with
  | nil => exact h
  | cons f fields ih =>
      rw [endOffset_cons, endOffset_cons]
      exact ih (Nat.add_le_add_right (roundUp_mono f.alignment_pos h) _)

/-- A start that every field is aligned to is as good as none. -/
theorem endOffset_add {start : Nat} (h : ∀ f ∈ fields, f.alignment ∣ start) (offset : Nat) :
    endOffset (start + offset) fields = start + endOffset offset fields := by
  induction fields generalizing offset with
  | nil => rfl
  | cons f fields ih =>
      have hround : roundUp (start + offset) f.alignment = start + roundUp offset f.alignment :=
        roundUp_add f.alignment_pos (h f List.mem_cons_self) offset
      rw [endOffset_cons, endOffset_cons, hround, Nat.add_assoc]
      exact ih (fun g hg => h g (List.mem_cons_of_mem f hg)) _

end Offsets

/-! ## Slots -/

/-- The bytes of a slot: those of its field, or of the fields in its place up to a multiple of the
step. -/
def Slot.extent (step : Nat) (slot : Slot FieldDecl) : Nat :=
  match slot.expanded with
  | none => slot.field.byteSize
  | some fields => roundUp (endOffset 0 fields) step

/-- The bytes of a slot that no field has. -/
def Slot.unused (step : Nat) (slot : Slot FieldDecl) : Nat :=
  slot.extent step - totalSize slot.flattened

/-- The bytes that no field has in all slots, each filled up to the alignment of the structure. -/
def unusedBytes (slots : List (Slot FieldDecl)) : Nat :=
  (slots.map (Slot.unused (maxAlignment (slots.flatMap Slot.flattened)))).sum

/-- Slots in falling order, where the fields in place of another one are aligned to no more than
that is. -/
structure Stacked (slots : List (Slot FieldDecl)) : Prop where
  falling : Falling (slots.map Slot.field)
  inPlace : ∀ slot ∈ slots, ∀ f ∈ slot.flattened, f.alignment ∣ slot.field.alignment

theorem totalSize_append (fields more : List FieldDecl) :
    totalSize (fields ++ more) = totalSize fields + totalSize more := by
  rw [totalSize, List.map_append, List.sum_append, totalSize, totalSize]

section Extents

variable {step : Nat}

theorem Slot.totalSize_le_extent (hstep : 0 < step) (slot : Slot FieldDecl) :
    totalSize slot.flattened ≤ slot.extent step := by
  rw [Slot.flattened, Slot.extent]
  cases slot.expanded with
  | none => exact le_rfl
  | some fields =>
      have hend := add_totalSize_le_endOffset 0 fields
      have hround := le_roundUp hstep (endOffset 0 fields)
      dsimp only
      omega

/-- What divides the alignment of the field and the step divides the bytes of the slot. -/
theorem Slot.dvd_extent {slot : Slot FieldDecl} {n : Nat} (hfield : n ∣ slot.field.alignment)
    (hn : n ∣ step) : n ∣ slot.extent step := by
  rw [Slot.extent]
  cases slot.expanded with
  | none => exact hfield.trans slot.field.alignment_dvd_byteSize
  | some fields => exact hn.trans (dvd_roundUp _ step)

/-- From where all of its fields are aligned, a slot is laid out in its bytes. -/
theorem Slot.endOffset_le (hstep : 0 < step) {slot : Slot FieldDecl} {start : Nat}
    (h : ∀ f ∈ slot.flattened, f.alignment ∣ start) :
    endOffset start slot.flattened ≤ start + slot.extent step := by
  have hmoved := endOffset_add h 0
  rw [Nat.add_zero] at hmoved
  rw [hmoved]
  refine Nat.add_le_add_left ?_ start
  rw [Slot.flattened, Slot.extent]
  cases slot.expanded with
  | none =>
      show roundUp 0 slot.field.alignment + slot.field.byteSize ≤ slot.field.byteSize
      rw [roundUp_of_dvd slot.field.alignment_pos (Nat.dvd_zero _), Nat.zero_add]
  | some fields => exact le_roundUp hstep _

/-- **Reordered slots end within their bytes.** The induction moves the start to behind the bytes of
the first slot, where all fields to come are aligned: they are aligned to no more than the fields
that they stand for, and those to no more than the first one. -/
theorem endOffset_flattened_le (hstep : 0 < step) {slots : List (Slot FieldDecl)}
    (h : Stacked slots) (hall : ∀ f ∈ slots.flatMap Slot.flattened, f.alignment ∣ step)
    {start : Nat} (hstart : ∀ f ∈ slots.flatMap Slot.flattened, f.alignment ∣ start) :
    endOffset start (slots.flatMap Slot.flattened) ≤
      start + (slots.map (Slot.extent step)).sum := by
  induction slots generalizing start with
  | nil => exact le_rfl
  | cons slot slots ih =>
      obtain ⟨hfirst, hfalling⟩ := List.pairwise_cons.mp h.falling
      have hrest : Stacked slots :=
        ⟨hfalling, fun other hother => h.inPlace other (List.mem_cons_of_mem slot hother)⟩
      rw [List.flatMap_cons] at hall hstart ⊢
      rw [List.forall_mem_append] at hall hstart
      have hnext : ∀ f ∈ slots.flatMap Slot.flattened,
          f.alignment ∣ start + slot.extent step := by
        intro f hf
        obtain ⟨other, hother, hmem⟩ := List.mem_flatMap.mp hf
        have hle : other.field.alignment ≤ slot.field.alignment :=
          hfirst _ (List.mem_map_of_mem hother)
        have hfield : f.alignment ∣ slot.field.alignment :=
          (hrest.inPlace other hother f hmem).trans
            (dvd_of_alignments other.field.alignment_mem slot.field.alignment_mem hle)
        exact Nat.dvd_add (hstart.2 f hf) (Slot.dvd_extent hfield (hall.2 f hf))
      rw [endOffset_append, List.map_cons, List.sum_cons, ← Nat.add_assoc]
      calc endOffset (endOffset start slot.flattened) (slots.flatMap Slot.flattened)
          ≤ endOffset (start + slot.extent step) (slots.flatMap Slot.flattened) :=
            endOffset_mono (Slot.endOffset_le hstep hstart.1) _
        _ ≤ start + slot.extent step + (slots.map (Slot.extent step)).sum :=
            ih hrest hall.2 hnext

/-- The bytes of slots are those of their fields and the unused ones. -/
theorem sum_extent (hstep : 0 < step) (slots : List (Slot FieldDecl)) :
    (slots.map (Slot.extent step)).sum =
      totalSize (slots.flatMap Slot.flattened) + (slots.map (Slot.unused step)).sum := by
  induction slots with
  | nil => rfl
  | cons slot slots ih =>
      have hslot : slot.extent step = totalSize slot.flattened + slot.unused step := by
        rw [Slot.unused, Nat.add_sub_cancel' (slot.totalSize_le_extent hstep)]
      rw [List.map_cons, List.sum_cons, ih, hslot, List.flatMap_cons, totalSize_append,
        List.map_cons, List.sum_cons]
      omega

/-- The bytes of a field that does not expand are all its own. -/
theorem Slot.unused_of_not_expanded {slot : Slot FieldDecl} (h : slot.isExpanded = false) :
    slot.unused step = 0 := by
  have hnone : slot.expanded = none :=
    Option.isNone_iff_eq_none.mp (Option.isSome_eq_false_iff.mp h)
  rw [Slot.unused, Slot.extent, Slot.flattened, hnone]
  exact Nat.sub_self _

end Extents

/-- **Reordered slots take no more than any order of their fields and the unused bytes.** -/
theorem structSize_flattened_le {slots : List (Slot FieldDecl)} (h : Stacked slots)
    {other : List FieldDecl} (hother : other.Perm (slots.flatMap Slot.flattened)) :
    structSize (slots.flatMap Slot.flattened) ≤ structSize other +
      roundUp (unusedBytes slots) (maxAlignment (slots.flatMap Slot.flattened)) := by
  have hfit := roundUp_totalSize_le_structSize other
  rw [totalSize_perm hother, maxAlignment_perm hother] at hfit
  rw [unusedBytes]
  generalize hfields : slots.flatMap Slot.flattened = fields at hfit ⊢
  have hstep := maxAlignment_pos fields
  have hend := endOffset_flattened_le hstep h
    (fun f hf => alignment_dvd_maxAlignment (hfields ▸ hf)) (fun f _ => Nat.dvd_zero _)
  rw [Nat.zero_add, sum_extent hstep, hfields] at hend
  calc structSize fields = roundUp (endOffset 0 fields) (maxAlignment fields) := rfl
    _ ≤ roundUp (totalSize fields + (slots.map (Slot.unused (maxAlignment fields))).sum)
          (maxAlignment fields) := roundUp_mono hstep hend
    _ ≤ roundUp (totalSize fields) (maxAlignment fields) +
          roundUp (slots.map (Slot.unused (maxAlignment fields))).sum (maxAlignment fields) :=
        roundUp_add_le hstep
    _ ≤ _ := Nat.add_le_add_right hfit _

/-! ## Structures that are built -/

theorem FieldDecl.alignment_of_structLike {f : FieldDecl}
    (h : f.type.category.isStructLike = true) : f.alignment = 8 := by
  rw [alignment, byteSize]
  revert h
  cases f.type.category <;> simp [Category.isStructLike, Category.isBase]

/-- A field that expands is aligned as a reference, so to no less than what stands in its place. -/
theorem FieldDecl.Plans.alignment_dvd {l : Library} {p : Place} {f : FieldDecl}
    {slot : Slot FieldView} (h : f.Plans l p slot) :
    ∀ v ∈ slot.flattened, v.1.alignment ∣ slot.field.1.alignment := by
  intro v hv
  rw [h.field]
  cases hfound : f.expansion? l p with
  | none =>
      rw [Slot.flattened, h.kept hfound, h.field] at hv
      rw [List.mem_singleton.mp hv]
  | some found =>
      have hexpands := FieldDecl.expansion?_eq_some_iff.mp hfound
      have hlargest : f.alignment = 8 := FieldDecl.alignment_of_structLike hexpands.category
      rw [hlargest]
      exact dvd_of_alignments v.1.alignment_mem (by decide) (Nat.min_le_right _ 8)

namespace Site.Names

variable {w : Site} {st : Structure NamedField} {purpose : Purpose}
  {plans : List (Slot FieldPlan)} (h : w.Names st purpose plans)
include h

/-- Where fields are reordered, the slots of a declared structure are in falling order. -/
theorem stacked (horder : w.options.reorderFields = true) (hmade : st.madeUp = false) :
    Stacked (st.slots.map (Slot.map NamedField.decl)) := by
  have hpurpose : purpose = .declared := by
    have hdeclared := h.madeUp.symm.trans hmade
    simpa using hdeclared
  have hslots := h.slots
  rw [hpurpose, slotsFor, if_neg (by decide), ordered, horder] at hslots
  constructor
  · rw [hslots, List.map_map]
    show Falling ((w.arrangeSlots st.decl _).1.map (·.field.decl))
    rw [w.arrangeSlots_fst]
    exact falling_arrange _ _
  · intro slot hslot
    obtain ⟨named, hnamed, rfl⟩ := List.mem_map.mp hslot
    obtain ⟨f, -, hplan⟩ := exists_of_mem_forall₂ (planSlots_eq_ok h.planned)
      (h.perm_views.mem_iff.mp (List.mem_map_of_mem hnamed))
    intro g hg
    rw [Slot.flattened_map] at hg
    obtain ⟨n, hn, rfl⟩ := List.mem_map.mp hg
    have hview : n.view ∈ (named.map NamedField.view).flattened := by
      rw [Slot.flattened_map]
      exact List.mem_map_of_mem hn
    exact hplan.alignment_dvd n.view hview

/-- Generated code has the fields that are inlined for the declaration, in whatever order. -/
theorem perm_generated : (st.flattenedFields.map NamedField.decl).Perm
    ((st.decl.fields.flatMap (FieldDecl.inlined w.library w.place)).map Prod.fst) := by
  have hperm := (h.perm_flattened).map Prod.fst
  rwa [List.map_map] at hperm

end Site.Names

/-- Where look-ups come to the same structures, the same fields stand for a field. -/
theorem FieldDecl.map_fst_inlined_congr {l l' : Library} {p p' : Place} {f : FieldDecl}
    (h : ∀ target, (∃ q, f.ExpandsTo l p q target) ↔ ∃ q, f.ExpandsTo l' p' q target) :
    (f.inlined l p).map Prod.fst = (f.inlined l' p').map Prod.fst := by
  have hexpands : ∀ {l p q target}, f.expansion? l p = some (q, target) →
      f.ExpandsTo l p q target := FieldDecl.expansion?_eq_some_iff.mp
  rw [inlined, inlined]
  cases hfound : f.expansion? l p with
  | none =>
      cases hfound' : f.expansion? l' p' with
      | none => rfl
      | some found =>
          obtain ⟨q, hq⟩ := (h found.2).mpr ⟨found.1, hexpands hfound'⟩
          cases hfound.symm.trans (FieldDecl.expansion?_eq_some_iff.mpr hq)
  | some found =>
      obtain ⟨q, hq⟩ := (h found.2).mp ⟨found.1, hexpands hfound⟩
      rw [FieldDecl.expansion?_eq_some_iff.mpr hq]
      simp [FieldDecl.inPlaceOf, Function.comp_def]

namespace Structure

/-- The declarations of the fields that generated code has, in order. -/
def generated (st : Structure Field) : List FieldDecl :=
  st.flattenedFields.map (·.decl)

/-- The slots with the declarations of their fields. -/
def layout (st : Structure Field) : List (Slot FieldDecl) :=
  st.slots.map (Slot.map (·.decl))

theorem flatMap_layout (st : Structure Field) :
    st.layout.flatMap Slot.flattened = st.generated := by
  rw [layout, generated, ← flattenedFields_map]
  rfl

end Structure

namespace Scope.Built

variable {s : Scope} {o : Options} {t : Tree} {l : Library} {k : Linkage} (h : s.Built o t l k)
  {st : Structure Field} (hst : st ∈ s.structures.all)
include h hst

theorem names_structure : ∃ purpose plans, Site.Names ⟨o, l, t.document.bare k⟩
    (st.map Field.toNamedField) purpose plans := by
  obtain ⟨r, resolved, hcomes⟩ := h.comes
  exact ((Site.accounts_roster hcomes.named).structures _ (hcomes.mem_structures hst)).1

theorem declared_structure (hmade : st.madeUp = false) : st.decl ∈ t.document.structLikes := by
  obtain ⟨r, resolved, hcomes⟩ := h.comes
  have hlays := (Site.sound_roster _ hcomes.named).structures _ (hcomes.mem_structures hst)
  exact hlays.declared hmade

theorem stacked_layout (horder : o.reorderFields = true) (hmade : st.madeUp = false) :
    Stacked st.layout := by
  obtain ⟨purpose, plans, hnames⟩ := h.names_structure hst
  have hstacked := hnames.stacked horder hmade
  rw [Structure.slots_map, List.map_map] at hstacked
  have hdecl : Slot.map NamedField.decl ∘ Slot.map Field.toNamedField =
      Slot.map (fun f : Field => f.decl) :=
    funext fun slot => Slot.map_map _ _ slot
  rwa [hdecl] at hstacked

theorem perm_generated : st.generated.Perm
    ((st.decl.fields.flatMap (FieldDecl.inlined l (t.document.bare k))).map Prod.fst) := by
  obtain ⟨purpose, plans, hnames⟩ := h.names_structure hst
  have hperm := hnames.perm_generated
  rwa [Structure.flattenedFields_map, List.map_map] at hperm

end Scope.Built

/-! ## Reordering -/

/-- **Reordering enlarges a structure by no more than what is lost behind expanded fields.** In
every file of a run that reorders fields, a declared structure takes no more bytes than any order of
its generated fields and those that no field has, rounded up; so if expanded fields lose none, none
of the orders is smaller. One of these orders is that of the same structure in a build that does not
reorder fields, if the fields of the structure expand to the same structures there. -/
theorem reordering_enlarges_by_unused (o : Options) :
    (∀ requests file s,
      ((Run.new { o with reorderFields := true }).serveAll requests).library.scope? file = some s →
        ∀ st ∈ s.structures.all, st.madeUp = false →
          ∀ other : List FieldDecl, other.Perm st.generated →
            structSize st.generated ≤ structSize other +
              roundUp (unusedBytes st.layout) (maxAlignment st.generated) ∧
            ((∀ slot ∈ st.layout, slot.isExpanded = true →
              slot.unused (maxAlignment st.generated) = 0) →
                structSize st.generated ≤ structSize other)) ∧
    ∀ (t t' : Tree) l l' k k' (s s' : Scope),
      s.Built { o with reorderFields := true } t l k →
      s'.Built { o with reorderFields := false } t' l' k' →
        ∀ st ∈ s.structures.all, ∀ st' ∈ s'.structures.all, st.decl = st'.decl →
          (∀ f ∈ st.decl.fields, ∀ target,
            (∃ q, f.ExpandsTo l (t.document.bare k) q target) ↔
              ∃ q, f.ExpandsTo l' (t'.document.bare k') q target) →
            st'.generated.Perm st.generated := by
  constructor
  · intro requests file s hs st hst hmade other hother
    obtain ⟨t, l, k, -, -, hbuilt⟩ := (Run.sound_serveAll _ requests).built file s hs
    have hstacked := hbuilt.stacked_layout hst rfl hmade
    rw [← st.flatMap_layout] at hother ⊢
    have hle := structSize_flattened_le hstacked hother
    refine ⟨hle, fun hnone => hle.trans ?_⟩
    have hunused : unusedBytes st.layout = 0 := by
      refine List.sum_eq_zero fun n hn => ?_
      obtain ⟨slot, hslot, rfl⟩ := List.mem_map.mp hn
      cases hexpanded : slot.isExpanded with
      | true => exact hnone slot hslot hexpanded
      | false => exact Slot.unused_of_not_expanded hexpanded
    rw [hunused, roundUp_of_dvd (maxAlignment_pos _) (Nat.dvd_zero _), Nat.add_zero]
  · intro t t' l l' k k' s s' hbuilt hbuilt' st hst st' hst' hdecl halike
    have hperm := hbuilt.perm_generated hst
    have hperm' := hbuilt'.perm_generated hst'
    have hsame :
        (st'.decl.fields.flatMap (FieldDecl.inlined l' (t'.document.bare k'))).map Prod.fst =
          (st.decl.fields.flatMap (FieldDecl.inlined l (t.document.bare k))).map Prod.fst := by
      rw [← hdecl, List.map_flatMap, List.map_flatMap]
      exact List.flatMap_congr fun f hf => (FieldDecl.map_fst_inlined_congr (halike f hf)).symm
    rw [hsame] at hperm'
    exact hperm'.trans hperm.symm

namespace Sample

/-- A record with a field that expands to a single byte. -/
def recordDecl : StructDecl where
  category := "struct"
  name := "Record"
  fields := [⟨1, "a", .default, .named "i8" .i8, none, []⟩,
    ⟨2, "base", .default, .named "Base" .struct, none, []⟩,
    ⟨3, "c", .default, .named "i64" .i64, none, []⟩]
  annotations := []
  expandable := none

/-- The file of the record and of what it has in place of its second field. -/
def record : Tree where
  document := { Document.empty "layout.thrift" with
    structs := [⟨"struct", "Base", [⟨1, "x", .default, .named "i8" .i8, none, []⟩], [], some true⟩,
      recordDecl] }
  includes := []

/-- The library of a run that has built the record. -/
def recorded (o : Options) : Library := ((Run.new o).serveAll [.build record]).library

/-- Wherever the record is built, it is the only declared structure with its name. -/
theorem eq_recordDecl {s : Scope} {o : Options} {l : Library} {k : Linkage}
    (h : s.Built o record l k) {st : Structure Field} (hst : st ∈ s.structures.all)
    (hmade : st.madeUp = false) (hsource : st.source = "Record") : st.decl = recordDecl := by
  have hmem := h.declared_structure hst hmade
  have hsource : st.decl.name = "Record" := hsource
  rcases List.mem_pair.mp hmem with hdecl | hdecl
  · rw [hdecl] at hsource
    exact absurd hsource (by decide)
  · exact hdecl

/-- The only file of a run that builds the record is the one of the record. -/
theorem built_record {o : Options} {file : String} {s : Scope}
    (hs : (recorded o).scope? file = some s) : ∃ l k, s.Built o record l k := by
  obtain ⟨t, l, k, ⟨root, hroot, ht⟩, -, hbuilt⟩ :=
    (Run.sound_serveAll o [.build record]).built file s hs
  obtain rfl := List.mem_singleton.mp hroot
  rcases Tree.within_iff.mp ht with rfl | ⟨i, hi, -⟩
  · exact ⟨l, k, hbuilt⟩
  · exact absurd hi List.not_mem_nil

end Sample

set_option maxRecDepth 100000 in
/-- With the last field in front, the reordered record takes 16 bytes, and behind the single byte in
place of its base it loses 7. Built alone, it has the same fields in both orders. -/
theorem reordering_enlarges_by_unused_record :
    (∃ s, (Sample.recorded { reorderFields := true }).scope? "layout.thrift" = some s ∧
      ∃ st ∈ s.structures.all, st.madeUp = false ∧ unusedBytes st.layout = 7 ∧
        structSize (st.generated.rotate 2) = 16 ∧
        structSize st.generated ≤ 16 + roundUp 7 (maxAlignment st.generated)) ∧
    ∃ (s s' : Scope) (k : Linkage), s.Built { reorderFields := true } Sample.record .empty k ∧
      s'.Built {} Sample.record .empty k ∧
        ∃ st ∈ s.structures.all, ∃ st' ∈ s'.structures.all, st.decl = st'.decl ∧
          st.generated.map FieldDecl.id = [2001, 3, 1] ∧
          st'.generated.map FieldDecl.id = [1, 2001, 3] ∧ st'.generated.Perm st.generated := by
  obtain ⟨hruns, hbuilds⟩ := reordering_enlarges_by_unused {}
  constructor
  · have hfound : ((Sample.recorded { reorderFields := true }).scope? "layout.thrift").any
        (fun s => s.structures.all.any fun st => !st.madeUp && unusedBytes st.layout == 7 &&
          structSize (st.generated.rotate 2) == 16) = true := by
      decide +kernel
    obtain ⟨s, hs, hfound⟩ := (Option.any_eq_true _ _).mp hfound
    simp only [List.any_eq_true, Bool.and_eq_true, Bool.not_eq_true', beq_iff_eq] at hfound
    obtain ⟨st, hst, ⟨hmade, hunused⟩, hsize⟩ := hfound
    obtain ⟨hle, -⟩ := hruns [.build Sample.record] "layout.thrift" s hs st hst hmade _
      (List.rotate_perm st.generated 2)
    rw [hsize, hunused] at hle
    exact ⟨s, hs, st, hst, hmade, hunused, hsize, hle⟩
  · have hreordered : (Sample.record.document.scope { reorderFields := true } .empty
        (Sample.alone Sample.record)).toOption.any (fun s => s.structures.all.any fun st =>
          st.source == "Record" && !st.madeUp &&
            st.generated.map FieldDecl.id == [2001, 3, 1]) = true := by
      decide +kernel
    have hdeclared : (Sample.record.document.scope {} .empty
        (Sample.alone Sample.record)).toOption.any (fun s => s.structures.all.any fun st =>
          st.source == "Record" && !st.madeUp &&
            st.generated.map FieldDecl.id == [1, 2001, 3]) = true := by
      decide +kernel
    obtain ⟨s, hs, hreordered⟩ := (Option.any_eq_true _ _).mp hreordered
    obtain ⟨s', hs', hdeclared⟩ := (Option.any_eq_true _ _).mp hdeclared
    simp only [List.any_eq_true, Bool.and_eq_true, Bool.not_eq_true', beq_iff_eq]
      at hreordered hdeclared
    obtain ⟨st, hst, ⟨hsource, hmade⟩, hids⟩ := hreordered
    obtain ⟨st', hst', ⟨hsource', hmade'⟩, hids'⟩ := hdeclared
    have hclosed := (Library.Sound.empty {} fun _ => True).closed
    have hbuilt : s.Built { reorderFields := true } Sample.record .empty
        (Sample.alone Sample.record) :=
      ⟨hclosed, rfl, .nil _, toOption_eq_some.mp hs⟩
    have hbuilt' : s'.Built {} Sample.record .empty (Sample.alone Sample.record) :=
      ⟨hclosed, rfl, .nil _, toOption_eq_some.mp hs'⟩
    have hdecl : st.decl = st'.decl := by
      rw [Sample.eq_recordDecl hbuilt hst hmade hsource,
        Sample.eq_recordDecl hbuilt' hst' hmade' hsource']
    have hperm := hbuilds _ _ _ _ _ _ s s' hbuilt hbuilt' st hst st' hst' hdecl
      fun _ _ _ => Iff.rfl
    exact ⟨s, s', _, hbuilt, hbuilt', st, hst, st', hst', hdecl, hids, hids', hperm⟩

set_option maxRecDepth 100000 in
/-- **A structure that gets larger.** As it is declared, the record takes 16 bytes: two single ones
and the long one. Reordering puts the single one that its base expands to in front of the long one,
and the other one behind, which takes 24. -/
theorem reordering_enlarges :
    ¬ ∀ (o : Options) requests file s s',
      ((Run.new { o with reorderFields := true }).serveAll requests).library.scope? file = some s →
      ((Run.new { o with reorderFields := false }).serveAll requests).library.scope? file =
          some s' →
        ∀ st ∈ s.structures.all, ∀ st' ∈ s'.structures.all, st.decl = st'.decl →
          st.madeUp = false → st'.madeUp = false →
            structSize st.generated ≤ structSize st'.generated := by
  intro h
  have hreordered : ((Sample.recorded { reorderFields := true }).scope? "layout.thrift").any
      (fun s => s.structures.all.any fun st => st.source == "Record" && !st.madeUp &&
        structSize st.generated == 24) = true := by
    decide +kernel
  have hdeclared : ((Sample.recorded {}).scope? "layout.thrift").any
      (fun s => s.structures.all.any fun st => st.source == "Record" && !st.madeUp &&
        structSize st.generated == 16) = true := by
    decide +kernel
  obtain ⟨s, hs, hreordered⟩ := (Option.any_eq_true _ _).mp hreordered
  obtain ⟨s', hs', hdeclared⟩ := (Option.any_eq_true _ _).mp hdeclared
  simp only [List.any_eq_true, Bool.and_eq_true, Bool.not_eq_true', beq_iff_eq]
    at hreordered hdeclared
  obtain ⟨st, hst, ⟨hsource, hmade⟩, hsize⟩ := hreordered
  obtain ⟨st', hst', ⟨hsource', hmade'⟩, hsize'⟩ := hdeclared
  obtain ⟨l, k, hbuilt⟩ := Sample.built_record hs
  obtain ⟨l', k', hbuilt'⟩ := Sample.built_record hs'
  have hdecl : st.decl = st'.decl := by
    rw [Sample.eq_recordDecl hbuilt hst hmade hsource,
      Sample.eq_recordDecl hbuilt' hst' hmade' hsource']
  have hle := h {} [.build Sample.record] "layout.thrift" s s' hs hs' st hst st' hst' hdecl hmade
    hmade'
  omega

end IdlScope

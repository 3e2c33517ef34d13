import IdlScope.Proofs.Members
import IdlScope.Proofs.Inlining
import IdlScope.Proofs.Refusals

/-!
# Field numbers — which are taken, which are out of range, and what is reported

A field that expands gives up its number, and its children get numbers that are made from it. So
children of one structure may meet each other, and they may meet the fields that keep their place.

* **`FirstTaken`** — the first field of a list whose number is taken, spelled out.
* **`FieldDecl.adopted`**, **`StructDecl.kept`** — the children with their numbers, and the numbers
  that stay in use; `planned_taken_iff` says that planned slots are searched for the first of them.
* **`taken_ids_reported`** — naming a structure fails exactly at the first child whose number is
  taken; a file with such a structure never gets a scope, and in every other one the numbers of
  flattened fields differ if the declared ones do.
* **`out_of_range_reported`** — a child gets its number unless it is out of range, or what its
  parent lends is, and only such children are reported.
-/

namespace IdlScope

/-! ## The first number that is taken -/

/-- The number of the field is in use, or a field before it has it. -/
def Taken (used : List Int) (before : List FieldDecl) (c : FieldDecl) : Prop :=
  c.id ∈ used ∨ c.id ∈ before.map FieldDecl.id

/-- The field is the first of the list whose number is taken. -/
def FirstTaken (used : List Int) (cs : List FieldDecl) (c : FieldDecl) : Prop :=
  ∃ before after, cs = before ++ c :: after ∧ Taken used before c ∧
    ∀ earlier d later, before = earlier ++ d :: later → ¬ Taken used earlier d

theorem taken_cons {used : List Int} {before : List FieldDecl} {c d : FieldDecl} :
    Taken used (d :: before) c ↔ Taken (d.id :: used) before c := by
  simp only [Taken, List.map_cons, List.mem_cons]
  tauto

theorem not_firstTaken_nil {used : List Int} {c : FieldDecl} : ¬ FirstTaken used [] c := by
  rintro ⟨before, after, heq, -⟩
  cases before <;> cases heq

/-- If the number of the first field is in use, that field is the first one. -/
theorem firstTaken_cons_of_mem {used : List Int} {cs : List FieldDecl} {c d : FieldDecl}
    (h : d.id ∈ used) : FirstTaken used (d :: cs) c ↔ c = d := by
  constructor
  · rintro ⟨before, after, heq, -, hfirst⟩
    cases before with
    | nil => exact (List.cons.inj heq).1.symm
    | cons b before =>
        obtain ⟨rfl, -⟩ := List.cons.inj heq
        exact absurd (.inl h) (hfirst [] d before rfl)
  · rintro rfl
    exact ⟨[], cs, rfl, .inl h, fun earlier d later heq => by cases earlier <;> cases heq⟩

/-- Otherwise its number is in use for the rest of the list. -/
theorem firstTaken_cons_of_not_mem {used : List Int} {cs : List FieldDecl} {c d : FieldDecl}
    (h : d.id ∉ used) : FirstTaken used (d :: cs) c ↔ FirstTaken (d.id :: used) cs c := by
  have hfree : ¬ Taken used [] d := fun htaken => htaken.elim h List.not_mem_nil
  constructor
  · rintro ⟨before, after, heq, htaken, hfirst⟩
    cases before with
    | nil =>
        obtain ⟨rfl, -⟩ := List.cons.inj heq
        exact absurd htaken hfree
    | cons b before =>
        obtain ⟨rfl, rfl⟩ := List.cons.inj heq
        refine ⟨before, after, rfl, taken_cons.mp htaken, fun earlier e later heq => ?_⟩
        rw [← taken_cons]
        exact hfirst (d :: earlier) e later (by rw [heq, List.cons_append])
  · rintro ⟨before, after, rfl, htaken, hfirst⟩
    refine ⟨d :: before, after, rfl, taken_cons.mpr htaken, fun earlier e later heq => ?_⟩
    cases earlier with
    | nil =>
        obtain ⟨rfl, -⟩ := List.cons.inj heq
        exact hfree
    | cons b earlier =>
        obtain ⟨rfl, hbefore⟩ := List.cons.inj heq
        rw [taken_cons]
        exact hfirst earlier e later hbefore

/-- There is a first one if there is any. -/
theorem exists_firstTaken_iff {used : List Int} {cs : List FieldDecl} :
    (∃ c, FirstTaken used cs c) ↔
      ∃ before c after, cs = before ++ c :: after ∧ Taken used before c := by
  constructor
  · rintro ⟨c, before, after, heq, htaken, -⟩
    exact ⟨before, c, after, heq, htaken⟩
  · rintro ⟨before, c, after, rfl, htaken⟩
    induction before generalizing used with
    | nil =>
        refine ⟨c, [], after, rfl, htaken, fun earlier d later heq => ?_⟩
        cases earlier <;> cases heq
    | cons d before ih =>
        by_cases hd : d.id ∈ used
        · exact ⟨d, (firstTaken_cons_of_mem hd).mpr rfl⟩
        · obtain ⟨e, he⟩ := ih (taken_cons.mp htaken)
          exact ⟨e, (firstTaken_cons_of_not_mem hd).mpr he⟩

/-- Where no number is taken, the numbers differ from each other and from those in use. -/
theorem nodup_of_no_firstTaken {used : List Int} {cs : List FieldDecl}
    (h : ∀ c, ¬ FirstTaken used cs c) :
    (cs.map FieldDecl.id).Nodup ∧ ∀ c ∈ cs, c.id ∉ used := by
  induction cs generalizing used with
  | nil => exact ⟨.nil, fun _ hc => absurd hc List.not_mem_nil⟩
  | cons d cs ih =>
      have hd : d.id ∉ used := fun hd => h d ((firstTaken_cons_of_mem hd).mpr rfl)
      obtain ⟨hnodup, hfree⟩ := ih fun c hc => h c ((firstTaken_cons_of_not_mem hd).mpr hc)
      refine ⟨List.nodup_cons.mpr ⟨fun hmem => ?_, hnodup⟩, List.forall_mem_cons.mpr ⟨hd, ?_⟩⟩
      · obtain ⟨c, hc, hid⟩ := List.mem_map.mp hmem
        exact hfree c hc (hid ▸ List.mem_cons_self)
      · exact fun c hc hmem => hfree c hc (List.mem_cons_of_mem _ hmem)

/-- The search through plans finds the first one. -/
theorem firstRepeated?_iff {used : List Int} {fs : List FieldPlan} {c : FieldDecl} :
    (firstRepeated? used fs).map FieldPlan.decl = some c ↔
      FirstTaken used (fs.map FieldPlan.decl) c := by
  induction fs generalizing used with
  | nil => exact iff_of_false (by simp [firstRepeated?]) not_firstTaken_nil
  | cons f fs ih =>
      rw [firstRepeated?, List.map_cons]
      split
      · next hmem =>
        rw [firstTaken_cons_of_mem hmem, Option.map_some, Option.some.injEq, eq_comm]
      · next hmem => rw [ih, firstTaken_cons_of_not_mem hmem]

/-! ## Numbers of a structure -/

/-- The children that come in place of a field, each with the number that it gets. -/
def FieldDecl.adopted (l : Library) (p : Place) (f : FieldDecl) : List FieldDecl :=
  match f.expansion? l p with
  | none => []
  | some (_, st) => st.fields.map fun c => { c with id := c.id + 1000 * f.id }

namespace StructDecl

variable (l : Library) (p : Place) (s : StructDecl)

/-- The children of all fields that expand, in the order of declaration. -/
def adopted : List FieldDecl :=
  s.fields.flatMap (FieldDecl.adopted l p)

/-- The numbers of the fields that keep their place. -/
def kept : List Int :=
  (s.fields.filter fun f => (f.expansion? l p).isNone).map FieldDecl.id

/-- What stands for the fields in generated code has the numbers that are kept and those of the
children. -/
theorem perm_inlined : ((s.fields.flatMap (FieldDecl.inlined l p)).map fun v => v.1.id).Perm
    (s.kept l p ++ (s.adopted l p).map FieldDecl.id) := by
  rw [kept, adopted]
  generalize s.fields = fields
  induction fields with
  | nil => exact .nil
  | cons f fields ih =>
      rw [List.flatMap_cons, List.flatMap_cons, List.map_append, List.map_append, List.filter_cons,
        FieldDecl.inlined, FieldDecl.adopted]
      cases f.expansion? l p with
      | none => exact ih.cons f.id
      | some found =>
          -- the children stand in the middle of the one list and in front of the other
          have hids : (found.2.fields.map (f.inPlaceOf found.1.home)).map (fun v => v.1.id) =
              (found.2.fields.map fun c => { c with id := c.id + 1000 * f.id }).map
                FieldDecl.id := by
            simp [FieldDecl.inPlaceOf, Function.comp_def]
          dsimp only
          rw [hids]
          refine (ih.append_left _).trans ?_
          simp only [Option.isNone_some, Bool.false_eq_true, if_false]
          rw [← List.append_assoc, ← List.append_assoc]
          exact List.perm_append_comm.append_right _

/-- If the declared numbers differ and no child takes one, those of generated code differ. -/
theorem nodup_inlined (hfields : (s.fields.map FieldDecl.id).Nodup)
    (hfree : ∀ c, ¬ FirstTaken (s.kept l p) (s.adopted l p) c) :
    ((s.fields.flatMap (FieldDecl.inlined l p)).map fun v => v.1.id).Nodup := by
  obtain ⟨hadopted, hapart⟩ := nodup_of_no_firstTaken hfree
  rw [(s.perm_inlined l p).nodup_iff, List.nodup_append]
  refine ⟨hfields.sublist (List.filter_sublist.map _), hadopted, fun id hkept id' hid => ?_⟩
  rintro rfl
  obtain ⟨c, hc, rfl⟩ := List.mem_map.mp hid
  exact hapart c hc hkept

end StructDecl

theorem FieldDecl.Plans.map_fst_children {l : Library} {p : Place} {f : FieldDecl}
    {slot : Slot FieldView} (h : f.Plans l p slot) :
    slot.children.map Prod.fst = f.adopted l p := by
  rw [FieldDecl.adopted]
  cases hfound : f.expansion? l p with
  | none =>
      rw [Slot.children, h.kept hfound]
      rfl
  | some found =>
      obtain ⟨q, st⟩ := found
      rw [(h.children_eq (FieldDecl.expansion?_eq_some_iff.mp hfound)).1, List.map_map]
      rfl

section Planned

variable {o : Options} {l : Library} {p : Place} {s : StructDecl} {plans : List (Slot FieldPlan)}
  (h : planSlots o l p s = .ok plans)
include h

/-- A child of the planned slots is one of the declarations, with its number. -/
theorem adopted_of_planSlots : (plans.flatMap Slot.children).map FieldPlan.decl =
    s.adopted l p := by
  have hchildren := flatMap_eq_of_forall₂ (f := FieldDecl.adopted l p)
    (g := fun slot : Slot FieldView => slot.children.map Prod.fst) (planSlots_eq_ok h)
    fun _ _ hplan => hplan.map_fst_children
  rw [StructDecl.adopted, ← hchildren, List.map_flatMap, List.flatMap_map]
  refine List.flatMap_congr fun slot _ => ?_
  rw [Slot.children_map, List.map_map]
  rfl

/-- The slots that do not expand keep the numbers of their fields. -/
theorem kept_of_planSlots :
    (plans.filter fun slot => !slot.isExpanded).map (·.field.decl.id) = s.kept l p := by
  have hplans := planSlots_eq_ok h
  rw [List.forall₂_map_right_iff] at hplans
  rw [StructDecl.kept]
  generalize s.fields = fields at hplans
  clear h
  induction hplans with
  | nil => rfl
  | @cons f slot fields plans hplan _ ih =>
      have hexpanded : slot.isExpanded = (f.expansion? l p).isSome := by
        rw [← Slot.isExpanded_map FieldPlan.view]
        exact hplan.isExpanded_eq
      have hdecl : slot.field.decl = f := congrArg Prod.fst hplan.field
      rw [List.filter_cons, List.filter_cons, hexpanded, Option.not_isSome]
      split
      · rw [List.map_cons, List.map_cons, ih, hdecl]
      · exact ih

/-- Planned slots are searched for the first child whose number is taken. -/
theorem planned_taken_iff {c : FieldDecl} : (takenId? plans).map FieldPlan.decl = some c ↔
    FirstTaken (s.kept l p) (s.adopted l p) c := by
  rw [← kept_of_planSlots h, ← adopted_of_planSlots h]
  exact firstRepeated?_iff

/-- Every child of planned slots got its number, so it is in range. -/
theorem inRange_of_planSlots {f : FieldDecl} (hf : f ∈ s.fields) {q : Place} {st : StructDecl}
    (hexpands : f.ExpandsTo l p q st) : ∀ c ∈ st.fields,
      isFieldId (1000 * f.id) = true ∧ isFieldId (c.id + 1000 * f.id) = true := by
  intro c hc
  obtain ⟨slot, -, hplan⟩ : ∃ slot ∈ _, f.Plans l p slot :=
    exists_of_mem_forall₂ (planSlots_eq_ok h).flip hf
  obtain ⟨children, -, hadopts⟩ :=
    hplan.replaced q st (FieldDecl.expansion?_eq_some_iff.mpr hexpands)
  obtain ⟨view, -, id, hid, -⟩ : ∃ view ∈ children, f.Adopts q.home c view :=
    exists_of_mem_forall₂ hadopts.flip hc
  obtain ⟨hbase, hsum, -⟩ := expandedId?_eq_some_iff.mp hid
  exact ⟨hbase, hsum⟩

end Planned

/-! ## Naming a structure -/

namespace Site

variable {w : Site}

/-- **Naming the fields of a structure fails exactly at the first child whose number is taken.** -/
theorem nameFields_eq_error_iff {s : StructDecl} {plans : List (Slot FieldPlan)}
    (h : planSlots w.options w.library w.place s = .ok plans) (name : String) (kind : StructKind)
    (purpose : Purpose) (r : Roster) (e : BuildError) :
    (w.nameFields s name kind purpose).run r = .error e ↔
      ∃ c, FirstTaken (s.kept w.library w.place) (s.adopted w.library w.place) c ∧
        e = .repeatedId w.file s.name c.name c.id := by
  have htaken := fun c => planned_taken_iff h (c := c)
  rw [nameFields, h, run_lift_ok_bind]
  dsimp only
  cases hsearch : takenId? plans with
  | none =>
      rw [hsearch] at htaken
      constructor
      · intro hrun
        cases hrun
      · rintro ⟨c, hc, -⟩
        cases (htaken c).mpr hc
  | some taken =>
      rw [hsearch] at htaken
      constructor
      · intro hrun
        cases hrun
        exact ⟨taken.decl, (htaken _).mp rfl, rfl⟩
      · rintro ⟨c, hc, rfl⟩
        obtain rfl := Option.some.inj ((htaken c).mpr hc)
        rfl

theorem Numbered.not_firstTaken {s : StructDecl} (h : w.Numbered s) (c : FieldDecl) :
    ¬ FirstTaken (s.kept w.library w.place) (s.adopted w.library w.place) c := by
  obtain ⟨plans, hplans, hsearch⟩ := h
  rw [← planned_taken_iff hplans, hsearch]
  exact fun h => by cases h

/-- The flattened fields of a named structure are those that are inlined for its declaration, in
whatever order. -/
theorem Names.perm_flattened {st : Structure NamedField} {purpose : Purpose}
    {plans : List (Slot FieldPlan)} (h : w.Names st purpose plans) :
    (st.flattenedFields.map NamedField.view).Perm
      (st.decl.fields.flatMap (FieldDecl.inlined w.library w.place)) := by
  have hinlined := flatMap_eq_of_forall₂ (f := FieldDecl.inlined w.library w.place)
    (g := Slot.flattened) (planSlots_eq_ok h.planned) fun _ _ hplan => hplan.flattened_eq
  rw [← Structure.flattenedFields_map, ← hinlined]
  exact h.perm_views.flatMap_right Slot.flattened

/-- The numbers of the flattened fields of a named structure differ, in whatever order the fields
are. -/
theorem Names.nodup_flattened {st : Structure NamedField} {purpose : Purpose}
    {plans : List (Slot FieldPlan)} (h : w.Names st purpose plans)
    (hfields : (st.decl.fields.map FieldDecl.id).Nodup) :
    (st.flattenedFields.map fun f => f.decl.id).Nodup := by
  have hnumbered : w.Numbered st.decl := ⟨plans, h.planned, h.numbered⟩
  have hperm := h.perm_flattened.map fun v => v.1.id
  rw [List.map_map] at hperm
  exact hperm.nodup_iff.mpr (st.decl.nodup_inlined _ _ hfields hnumbered.not_firstTaken)

end Site

/-! ## Files -/

section Documents

variable {d : Document} {o : Options} {l : Library} {k : Linkage}

/-- In a document with a scope every structure of a known kind is numbered. -/
theorem Document.numbered_of_scope {s : Scope} (h : d.scope o l k = .ok s) {purpose : Site.Purpose}
    {st : StructDecl} (hst : Site.Serves ⟨o, l, d.bare k⟩ purpose st)
    (hkind : (StructKind.ofSpelling? st.category).isSome) :
    Site.Numbered ⟨o, l, d.bare k⟩ st := by
  obtain ⟨r, resolved, done, hpasses⟩ := Document.scope_eq_ok h
  exact Site.numbered_of_roster hpasses.named hst hkind

/-- What a document is refused for, if it is not a name that cannot be resolved. -/
theorem Document.refuses_of_scope {e : BuildError} (h : d.scope o l k = .error e)
    (he : ∀ error, e ≠ .resolve error) : Site.Refuses ⟨o, l, d.bare k⟩ e :=
  Site.refuses_of_roster ((Document.scope_eq_error h).resolve_right fun ⟨error, heq⟩ =>
    he error heq)

/-- A document that is refused for a number that is taken has a structure with such a child. -/
theorem Document.firstTaken_of_scope {file owner field : String} {id : Int}
    (h : d.scope o l k = .error (.repeatedId file owner field id)) :
    file = d.filename ∧ ∃ purpose st, Site.Serves ⟨o, l, d.bare k⟩ purpose st ∧ st.name = owner ∧
      (∃ plans, planSlots o l (d.bare k) st = .ok plans) ∧
      ∃ c, FirstTaken (st.kept l (d.bare k)) (st.adopted l (d.bare k)) c ∧ c.name = field ∧
        c.id = id := by
  have hrefuses := refuses_of_scope h fun _ heq => by cases heq
  cases hrefuses with
  | unplanned _ hplans =>
      obtain ⟨raw, heq⟩ | ⟨f, -, q, target, -, child, -, -, heq⟩ := planSlots_eq_error hplans
      · cases heq
      · cases heq
  | @repeated st purpose plans taken hst hplans htaken =>
      refine ⟨rfl, purpose, st, hst, rfl, ⟨plans, hplans⟩, taken.decl, ?_, rfl, rfl⟩
      exact (planned_taken_iff hplans).mp (by rw [htaken]; rfl)

/-- A document that is refused for a number out of range has a structure with such a child. -/
theorem Document.outOfRange_of_scope {file owner field : String}
    (h : d.scope o l k = .error (.idOutOfRange file owner field)) :
    file = d.filename ∧ ∃ purpose st, Site.Serves ⟨o, l, d.bare k⟩ purpose st ∧ st.name = owner ∧
      ∃ f ∈ st.fields, ∃ q target, f.ExpandsTo l (d.bare k) q target ∧
        ∃ child ∈ target.fields, child.name = field ∧ expandedId? child.id f.id = none := by
  have hrefuses := refuses_of_scope h fun _ heq => by cases heq
  cases hrefuses with
  | @unplanned st purpose _ hst hplans =>
      obtain ⟨raw, heq⟩ | ⟨f, hf, q, target, hfound, child, hchild, hid, heq⟩ :=
        planSlots_eq_error hplans
      · cases heq
      · cases heq
        exact ⟨rfl, purpose, st, hst, rfl, f, hf, q, target,
          FieldDecl.expansion?_eq_some_iff.mp hfound, child, hchild, rfl, hid⟩

end Documents

/-- **Numbers that are taken are reported exactly.** Where the fields of a structure can be
planned, naming it fails if and only if the number of some child is one that is kept or that an
earlier child has, and then with the first such child and its number. A document is refused for
such a number only because of a structure in it, and in one with a scope no structure has such a
child. So in every file of a run, if the declared numbers of a structure differ, those of its
flattened fields do, in whatever order they are. -/
theorem taken_ids_reported :
    (∀ (w : Site) s plans, planSlots w.options w.library w.place s = .ok plans →
      ∀ name kind purpose r,
        ((∃ e, (w.nameFields s name kind purpose).run r = .error e) ↔
          ∃ before c after, s.adopted w.library w.place = before ++ c :: after ∧
            Taken (s.kept w.library w.place) before c) ∧
        ∀ e, (w.nameFields s name kind purpose).run r = .error e ↔
          ∃ c, FirstTaken (s.kept w.library w.place) (s.adopted w.library w.place) c ∧
            e = .repeatedId w.file s.name c.name c.id) ∧
    (∀ (d : Document) o l k file owner field id,
      d.scope o l k = .error (.repeatedId file owner field id) →
        file = d.filename ∧ ∃ purpose s, Site.Serves ⟨o, l, d.bare k⟩ purpose s ∧
          s.name = owner ∧ (∃ plans, planSlots o l (d.bare k) s = .ok plans) ∧
          ∃ c, FirstTaken (s.kept l (d.bare k)) (s.adopted l (d.bare k)) c ∧ c.name = field ∧
            c.id = id) ∧
    (∀ (d : Document) o l k scope, d.scope o l k = .ok scope →
      ∀ purpose s, Site.Serves ⟨o, l, d.bare k⟩ purpose s →
        (StructKind.ofSpelling? s.category).isSome →
          ∀ c, ¬ FirstTaken (s.kept l (d.bare k)) (s.adopted l (d.bare k)) c) ∧
    ∀ o requests file s, ((Run.new o).serveAll requests).library.scope? file = some s →
      ∀ st ∈ s.structures.all, (st.decl.fields.map FieldDecl.id).Nodup →
        (st.flattenedFields.map fun f => f.decl.id).Nodup := by
  refine ⟨fun w s plans hplans name kind purpose r => ⟨?_, ?_⟩, ?_, ?_, ?_⟩
  · rw [← exists_firstTaken_iff]
    simp only [Site.nameFields_eq_error_iff hplans]
    exact ⟨fun ⟨_, c, hc, _⟩ => ⟨c, hc⟩, fun ⟨c, hc⟩ => ⟨_, c, hc, rfl⟩⟩
  · exact Site.nameFields_eq_error_iff hplans name kind purpose r
  · exact fun d o l k file owner field id => Document.firstTaken_of_scope
  · exact fun d o l k scope h purpose s hs hkind =>
      (Document.numbered_of_scope h hs hkind).not_firstTaken
  · intro o requests file s hs st hst hfields
    obtain ⟨t, m, k, -, -, hbuilt⟩ := (Run.sound_serveAll o requests).built file s hs
    obtain ⟨r, resolved, hcomes⟩ := hbuilt.comes
    have hmem : st.map Field.toNamedField ∈ r.structures.all := by
      rw [← hcomes.map_structures, StructureLists.all_map]
      exact List.mem_map_of_mem hst
    obtain ⟨⟨purpose, plans, hnames⟩, -⟩ := (Site.accounts_roster hcomes.named).structures _ hmem
    have hnodup := hnames.nodup_flattened hfields
    rwa [Structure.flattenedFields_map, List.map_map] at hnodup

namespace Sample

/-- A pair that fields expand to, and an order of it with a count that has the given number. The
halves of the pair get the numbers `1001` and `1002` there. -/
def pair (count : Int) : Tree where
  document := { Document.empty "pair.thrift" with
    structs := [⟨"struct", "Pair", [⟨1, "left", .default, .named "i32" .i32, none, []⟩,
        ⟨2, "right", .default, .named "i32" .i32, none, []⟩], [], some true⟩,
      ⟨"struct", "Order", [⟨1, "pair", .default, .named "Pair" .struct, none, []⟩,
        ⟨count, "count", .default, .named "i32" .i32, none, []⟩], [], none⟩] }
  includes := []

/-- The linkage of a tree without includes. -/
def alone (t : Tree) : Linkage := Options.unlinked {} t.document

end Sample

set_option maxRecDepth 100000 in
/-- The right half of the pair takes the number of the count, and naming the order fails with it,
but no half takes `1003`. The holder has its own two numbers, with its fields in another order. -/
theorem taken_ids_reported_pair :
    (∃ (w : Site) (s : StructDecl), ∀ name kind purpose r,
      (w.nameFields s name kind purpose).run r =
        .error (.repeatedId "pair.thrift" "Order" "right" 1002)) ∧
    (∃ p : Place, ∀ s ∈ (Sample.pair 1003).document.structs,
      ∀ c, ¬ FirstTaken (s.kept .empty p) (s.adopted .empty p) c) ∧
    ∃ s, (Sample.library { reorderFields := true }).scope? "user.thrift" = some s ∧
      ∃ st ∈ s.structures.all, st.source = "Holder" ∧
        (st.flattenedFields.map fun f => f.decl.id) = [1, 2001] ∧
        (st.flattenedFields.map fun f => f.decl.id).Nodup := by
  obtain ⟨hreported, hrefused, hscoped, hruns⟩ := taken_ids_reported
  refine ⟨?_, ?_, ?_⟩
  · have hscope : ((Sample.pair 1002).document.scope {} .empty
        (Sample.alone (Sample.pair 1002))).map (fun _ => ()) =
          .error (.repeatedId "pair.thrift" "Order" "right" 1002) := by
      decide +kernel
    obtain ⟨-, purpose, s, -, hname, ⟨plans, hplans⟩, c, hc, hfield, hid⟩ :=
      hrefused (Sample.pair 1002).document {} .empty _ _ _ _ _ (map_eq_error.mp hscope)
    have hfails := hreported
      ⟨{}, .empty, (Sample.pair 1002).document.bare (Sample.alone (Sample.pair 1002))⟩
      s plans hplans
    refine ⟨_, s, fun name kind purpose r =>
      ((hfails name kind purpose r).2 _).mpr ⟨c, hc, ?_⟩⟩
    rw [hname, hfield, hid]
    rfl
  · have hscope : ((Sample.pair 1003).document.scope {} .empty
        (Sample.alone (Sample.pair 1003))).map (fun _ => ()) = .ok () := by
      decide +kernel
    obtain ⟨scope, hscope, -⟩ := map_eq_ok.mp hscope
    have hkinds : ∀ s ∈ (Sample.pair 1003).document.structs,
        (StructKind.ofSpelling? s.category).isSome := by
      decide
    refine ⟨_, fun s hs => hscoped (Sample.pair 1003).document {} .empty _ scope hscope .declared s
      ?_ (hkinds s hs)⟩
    exact List.mem_append_left _ (List.mem_append_left _ hs)
  · have hfound : ((Sample.library { reorderFields := true }).scope? "user.thrift").any (fun s =>
        s.structures.all.any fun st => st.source == "Holder" &&
          decide (st.decl.fields.map FieldDecl.id).Nodup &&
          (st.flattenedFields.map fun f => f.decl.id) == [1, 2001]) = true := by
      decide +kernel
    obtain ⟨s, hs, hfound⟩ := (Option.any_eq_true _ _).mp hfound
    simp only [List.any_eq_true, Bool.and_eq_true, beq_iff_eq, decide_eq_true_eq] at hfound
    obtain ⟨st, hst, ⟨hsource, hfields⟩, hids⟩ := hfound
    exact ⟨s, hs, st, hst, hsource, hids,
      hruns { reorderFields := true } [.build Sample.user] _ s hs st hst hfields⟩

/-- **A child gets its number unless that or what its parent lends is out of range.** It is then
what the two numbers make. So a number in range is always found exactly where the parent lends one
in range, and planning a child fails exactly where one of the two is not. In a structure that was
planned all children have their numbers, and a document is refused for a number only because of a
child of that kind. -/
theorem out_of_range_reported (o : Options) (l : Library) (d : Document) (k : Linkage) :
    (∀ child parent,
      (∀ id, expandedId? child parent = some id ↔
        isFieldId (1000 * parent) = true ∧ isFieldId (child + 1000 * parent) = true ∧
          id = child + 1000 * parent) ∧
      ((isFieldId (child + 1000 * parent) = true →
          expandedId? child parent = some (child + 1000 * parent)) ↔
        (isFieldId (child + 1000 * parent) = true → isFieldId (1000 * parent) = true))) ∧
    (∀ owner home (parent child : FieldDecl),
      parent.childPlan o d.filename owner home child =
          .error (.idOutOfRange d.filename owner child.name) ↔
        ¬ (isFieldId (1000 * parent.id) = true ∧
          isFieldId (child.id + 1000 * parent.id) = true)) ∧
    (∀ s plans, planSlots o l (d.bare k) s = .ok plans →
      (plans.flatMap Slot.children).map FieldPlan.decl = s.adopted l (d.bare k) ∧
      ∀ f ∈ s.fields, ∀ q target, f.ExpandsTo l (d.bare k) q target → ∀ c ∈ target.fields,
        isFieldId (1000 * f.id) = true ∧ isFieldId (c.id + 1000 * f.id) = true) ∧
    ∀ file owner field, d.scope o l k = .error (.idOutOfRange file owner field) →
      file = d.filename ∧ ∃ purpose s, Site.Serves ⟨o, l, d.bare k⟩ purpose s ∧
        s.name = owner ∧ ∃ f ∈ s.fields, ∃ q target, f.ExpandsTo l (d.bare k) q target ∧
          ∃ c ∈ target.fields, c.name = field ∧
            ¬ (isFieldId (1000 * f.id) = true ∧ isFieldId (c.id + 1000 * f.id) = true) := by
  refine ⟨fun child parent => ⟨fun _ => expandedId?_eq_some_iff, ?_⟩, ?_, ?_, ?_⟩
  · rw [expandedId?_eq_some_iff]
    exact ⟨fun h hid => (h hid).1, fun h hid => ⟨h hid, hid, rfl⟩⟩
  · intro owner home parent child
    rw [← expandedId?_eq_none_iff]
    constructor
    · intro h
      obtain ⟨raw, heq⟩ | ⟨hid, -⟩ := FieldDecl.childPlan_eq_error h
      · cases heq
      · exact hid
    · intro hid
      rw [FieldDecl.childPlan, hid]
  · exact fun s plans h =>
      ⟨adopted_of_planSlots h, fun f hf q target => inRange_of_planSlots h hf⟩
  · intro file owner field h
    obtain ⟨hfile, purpose, s, hs, howner, f, hf, q, target, hexpands, c, hc, hname, hid⟩ :=
      Document.outOfRange_of_scope h
    exact ⟨hfile, purpose, s, hs, howner, f, hf, q, target, hexpands, c, hc, hname,
      expandedId?_eq_none_iff.mp hid⟩

namespace Sample

/-- An item with a number far below zero, and an order of it that has the given number. -/
def far (item : Int) : Tree where
  document := { Document.empty "far.thrift" with
    structs := [⟨"struct", "Item", [⟨-1000, "x", .default, .named "i32" .i32, none, []⟩], [],
        some true⟩,
      ⟨"struct", "Order", [⟨item, "item", .default, .named "Item" .struct, none, []⟩], [],
        none⟩] }
  includes := []

end Sample

set_option maxRecDepth 100000 in
/-- The document with the order is refused because of such a child, if the item has the number
`2147484`. One less, and the order can be planned. -/
theorem out_of_range_reported_far :
    (∃ s : StructDecl, s.name = "Order" ∧ ∃ f ∈ s.fields, ∃ p q target,
      f.ExpandsTo .empty p q target ∧ ∃ c ∈ target.fields, c.name = "x" ∧
        ¬ (isFieldId (1000 * f.id) = true ∧ isFieldId (c.id + 1000 * f.id) = true)) ∧
    ∃ s ∈ (Sample.far 2147483).document.structs, ∃ f ∈ s.fields, f.id = 2147483 ∧
      ∃ p q target, f.ExpandsTo .empty p q target ∧ ∀ c ∈ target.fields,
        isFieldId (1000 * f.id) = true ∧ isFieldId (c.id + 1000 * f.id) = true := by
  constructor
  · have hscope : ((Sample.far 2147484).document.scope {} .empty
        (Sample.alone (Sample.far 2147484))).map (fun _ => ()) =
          .error (.idOutOfRange "far.thrift" "Order" "x") := by
      decide +kernel
    obtain ⟨-, -, -, hrefused⟩ := out_of_range_reported {} .empty (Sample.far 2147484).document
      (Sample.alone (Sample.far 2147484))
    obtain ⟨-, purpose, s, -, hname, f, hf, q, target, hexpands, hchild⟩ :=
      hrefused _ _ _ (map_eq_error.mp hscope)
    exact ⟨s, hname, f, hf, _, q, target, hexpands, hchild⟩
  · let place := (Sample.far 2147483).document.bare (Sample.alone (Sample.far 2147483))
    have hfound : (Sample.far 2147483).document.structs.any (fun s =>
        (planSlots {} .empty place s).toOption.isSome && s.fields.any fun f =>
          decide (f.id = 2147483) && (f.expansion? .empty place).isSome) = true := by
      decide +kernel
    simp only [List.any_eq_true, Bool.and_eq_true, decide_eq_true_eq, Option.isSome_iff_exists]
      at hfound
    obtain ⟨s, hs, ⟨plans, hplans⟩, f, hf, hid, ⟨q, target⟩, hexpands⟩ := hfound
    have hexpands := FieldDecl.expansion?_eq_some_iff.mp hexpands
    obtain ⟨-, -, hplanned, -⟩ := out_of_range_reported {} .empty (Sample.far 2147483).document
      (Sample.alone (Sample.far 2147483))
    obtain ⟨-, hinRange⟩ := hplanned s plans (toOption_eq_some.mp hplans)
    exact ⟨s, hs, f, hf, hid, place, q, target, hexpands, hinRange f hf q target hexpands⟩

set_option maxRecDepth 100000 in
/-- A number in range is refused where what the parent lends is not: the item's number would be
`2147483000`, the largest one in range being `2147483647`. -/
theorem in_range_refused :
    ¬ (∀ child parent, isFieldId child = true → isFieldId parent = true →
      isFieldId (child + 1000 * parent) = true →
        expandedId? child parent = some (child + 1000 * parent)) ∧
    (Library.empty.build {} (Sample.far 2147484)).1.map (fun _ => ()) =
      .error (.idOutOfRange "far.thrift" "Order" "x") := by
  refine ⟨fun h => ?_, by decide +kernel⟩
  have hid := h (-1000) 2147484 (by decide) (by decide) (by decide)
  revert hid
  decide

end IdlScope

import IdlScope.Proofs.Names
import IdlScope.Proofs.Steps
import IdlScope.Scope.Roster
import Mathlib.Tactic.Tauto

/-!
# Rosters — what is known of every name that a file gives

A roster grows step by step, and what holds of its entries holds from the step on that adds
them. `Site.Sound` collects it, and `Site.sound_roster` proves it of every finished roster:

* **`Site.Lays`** — a structure is there for a reason, and its slots are the planned ones.
* Every record of expansions belongs to a listed structure in which a field expands, and
  every such structure has one.
* No name is empty.

Planning is taken apart by **`planSlots_eq_ok`**, which says which fields expand and what
comes in their place.
-/

namespace IdlScope

theorem identify_of_identified {file raw name : String} (h : identified file raw = .ok name) :
    Naming.identify raw = some name := by
  rw [identified] at h
  split at h
  · next hid => rw [hid, Except.ok.inj h]
  · cases h

/-! ## Plans -/

/-- The declaration of a field and where the field comes from. -/
abbrev FieldView := FieldDecl × Option Origin

/-- What is planned of a field. -/
def FieldPlan.view (f : FieldPlan) : FieldView := (f.decl, f.origin)

/-- What was planned of a field. -/
def NamedField.view (f : NamedField) : FieldView := (f.decl, f.origin)

/-- A child as it stands in place of its parent: only its number is another one. -/
def FieldDecl.Adopts (parent : FieldDecl) (home : Home) (child : FieldDecl) (f : FieldView) :
    Prop :=
  ∃ id, expandedId? child.id parent.id = some id ∧
    f = ({ child with id := id }, some ⟨child, parent.name, home⟩)

/-- The slot of a field: one that expands holds the fields of the structure it refers to. -/
structure FieldDecl.Plans (l : Library) (p : Place) (f : FieldDecl) (s : Slot FieldView) :
    Prop where
  field : s.field = (f, none)
  kept : f.expansion? l p = none → s.expanded = none
  replaced : ∀ q target, f.expansion? l p = some (q, target) →
    ∃ children, s.expanded = some children ∧
      List.Forall₂ (f.Adopts q.home) target.fields children

theorem plan_eq_ok {o : Options} {file : String} {f : FieldDecl} {plan : FieldPlan}
    (h : f.plan o file = .ok plan) : plan.decl = f ∧ plan.view = (f, none) := by
  obtain ⟨stem, _, h⟩ := bind_eq_ok.mp h
  rw [← pure_eq_ok.mp h]
  exact ⟨rfl, rfl⟩

theorem childPlan_eq_ok {o : Options} {file structureName : String} {home : Home}
    {parent child : FieldDecl} {plan : FieldPlan}
    (h : parent.childPlan o file structureName home child = .ok plan) :
    parent.Adopts home child plan.view := by
  rw [FieldDecl.childPlan] at h
  split at h
  · cases h
  · next id hid =>
    obtain ⟨stem, _, h⟩ := bind_eq_ok.mp h
    rw [← pure_eq_ok.mp h]
    exact ⟨id, hid, rfl⟩

/-- Plans that went well have a slot for each field, in order. -/
theorem planSlots_eq_ok {o : Options} {l : Library} {p : Place} {s : StructDecl}
    {slots : List (Slot FieldPlan)} (h : planSlots o l p s = .ok slots) :
    List.Forall₂ (FieldDecl.Plans l p) s.fields (slots.map (Slot.map FieldPlan.view)) := by
  obtain ⟨plans, hplans, hslots⟩ := bind_eq_ok.mp h
  clear h
  rw [mapM_eq_ok] at hplans hslots
  generalize s.fields = fields at hplans ⊢
  -- induction on the planned fields: the slots follow them one by one
  induction hplans generalizing slots with
  | nil =>
      cases hslots
      exact .nil
  | @cons f plan fields plans hplan _ ih =>
      obtain ⟨hdecl, hview⟩ := plan_eq_ok hplan
      cases hslots with
      | @cons _ slot _ slots hslot hslots =>
          refine .cons ?_ (ih hslots)
          rw [hdecl] at hslot
          cases hfound : f.expansion? l p with
          | none =>
              rw [hfound] at hslot
              cases hslot
              exact ⟨hview, fun _ => rfl, fun q target h => by cases hfound.symm.trans h⟩
          | some found =>
              obtain ⟨q, target⟩ := found
              rw [hfound] at hslot
              obtain ⟨children, hchildren, hslot⟩ := bind_eq_ok.mp hslot
              cases hslot
              refine ⟨hview, fun h => (by cases hfound.symm.trans h), ?_⟩
              intro q' target' h
              obtain ⟨rfl, rfl⟩ := Prod.mk.inj (Option.some.inj (hfound.symm.trans h))
              refine ⟨children.map FieldPlan.view, rfl, ?_⟩
              rw [List.forall₂_map_right_iff]
              exact (mapM_eq_ok.mp hchildren).imp fun _ _ h => childPlan_eq_ok h

/-- What holds of the plans of declared fields and of the plans of children holds of all plans. -/
theorem forall_of_planSlots {o : Options} {l : Library} {p : Place} {s : StructDecl}
    {slots : List (Slot FieldPlan)} {P : FieldPlan → Prop}
    (hplan : ∀ f plan, FieldDecl.plan o p.directory.filename f = .ok plan → P plan)
    (hchild : ∀ home parent child plan,
      FieldDecl.childPlan o p.directory.filename s.name home parent child = .ok plan → P plan)
    (h : planSlots o l p s = .ok slots) : ∀ slot ∈ slots, ∀ f ∈ slot.all, P f := by
  intro slot hslot f hf
  obtain ⟨plans, hplans, hslots⟩ := bind_eq_ok.mp h
  obtain ⟨plan, hmem, hslot⟩ := exists_of_mem_forall₂ (mapM_eq_ok.mp hslots) hslot
  obtain ⟨decl, -, hdecl⟩ := exists_of_mem_forall₂ (mapM_eq_ok.mp hplans) hmem
  cases hfound : plan.decl.expansion? l p with
  | none =>
      rw [hfound] at hslot
      cases hslot
      rw [List.mem_singleton.mp hf]
      exact hplan decl plan hdecl
  | some found =>
      rw [hfound] at hslot
      obtain ⟨children, hchildren, hslot⟩ := bind_eq_ok.mp hslot
      cases hslot
      rcases List.mem_cons.mp hf with rfl | hf
      · exact hplan decl _ hdecl
      · obtain ⟨child, -, hplanned⟩ := exists_of_mem_forall₂ (mapM_eq_ok.mp hchildren) hf
        exact hchild _ _ child f hplanned

/-! ## Names keep what was planned -/

theorem view_nameSlot (o : Options) (s : Slot FieldPlan) (as : List Accessor) (t : NameTable) :
    ((nameSlot o s as).run t).1.map NamedField.view = s.map FieldPlan.view := by
  cases s with
  | mk f expanded =>
      cases expanded with
      | none => rfl
      | some plans =>
          have h := map_run_mapM (f := FieldPlan.namedChild o) (g := NamedField.view)
            (h := FieldPlan.view) (fun _ _ => rfl) plans ((f.named o as).run t).2
          exact congrArg (fun children => (⟨f.view, some children⟩ : Slot FieldView)) h

theorem view_nameSlots (o : Options) (slots : List (Slot FieldPlan)) (t : NameTable) :
    ((nameSlots o slots).run t).1.map (Slot.map NamedField.view) =
      slots.map (Slot.map FieldPlan.view) := by
  -- accessors are named in a round of their own, which leaves the plans alone
  have haccessors := map_run_mapM (f := fun s : Slot FieldPlan => s.field.accessors o)
    (g := fun _ => ()) (h := fun _ => ()) (fun _ _ => rfl) slots t
  generalize hrun : (slots.mapM fun s : Slot FieldPlan => s.field.accessors o).run t = r
    at haccessors
  have hlength : slots.length ≤ r.1.length := by
    have := congrArg List.length haccessors
    rw [List.length_map, List.length_map] at this
    exact this.ge
  have hslots := map_run_mapM (f := fun s : Slot FieldPlan × List Accessor => nameSlot o s.1 s.2)
    (g := Slot.map NamedField.view) (h := Slot.map FieldPlan.view ∘ Prod.fst)
    (fun s t => view_nameSlot o s.1 s.2 t) (slots.zip r.1) r.2
  rw [← List.map_map, List.map_fst_zip hlength] at hslots
  rw [← hslots, ← hrun]
  rfl

/-- Marking the response changes nothing but the mark. -/
theorem map_markResponse {β : Type} {g : NamedField → β}
    (hg : ∀ f, g { f with isResponse := true } = g f) (slots : List (Slot NamedField)) :
    (markResponse slots).map (Slot.map g) = slots.map (Slot.map g) := by
  induction slots with
  | nil => rfl
  | cons s ss ih =>
      rw [markResponse]
      split
      · rw [List.map_cons, List.map_cons, Slot.map, Slot.map, hg]
      · rw [List.map_cons, ih, List.map_cons]

theorem perm_arrange {α : Type} (decl : α → FieldDecl) (items : List α) :
    (arrange decl items).Perm items := by
  rw [arrange_eq_mergeSort]
  exact List.mergeSort_perm items _

theorem StructureLists.mem_all_push {α : Type} {l : StructureLists α} {s t : Structure α} :
    t ∈ (l.push s).all ↔ t ∈ l.all ∨ t = s := by
  unfold push all
  split
  · simp [or_assoc]
  · split <;> simp only [List.mem_append, List.mem_singleton] <;> tauto

theorem Table.get?_setNew {α : Type} (t : Table α) (name other : String) (a : α) :
    (t.setNew name a).get? other = (t.get? other).or (if other = name then some a else none) := by
  rw [setNew, contains]
  split
  · next h =>
    split
    · next heq =>
      obtain ⟨b, hb⟩ := Option.isSome_iff_exists.mp h
      rw [heq, hb]
      rfl
    · rw [Option.or_none]
  · simp only [get?, List.lookup_append]
    congr 1
    by_cases h : other = name
    · simp [h]
    · have hne : (other == name) = false := by simpa using h
      simp [List.lookup_cons, h, hne]

namespace Site

variable (w : Site)

/-! ## Sound rosters -/

/-- What a declaration is in the file if a structure of it is listed for the purpose. -/
def Serves : Purpose → StructDecl → Prop
  | .declared, s => s ∈ w.place.directory.document.structLikes
  | .arguments, s => ∃ service ∈ w.place.directory.document.services,
      ∃ f ∈ service.functions, s = argsStruct service f
  | .result, s => ∃ service ∈ w.place.directory.document.services,
      ∃ f ∈ service.functions, f.oneway = false ∧ s = resultStruct service f

/-- A structure is there for a purpose, and its slots are the planned ones, in order unless
the options ask for another one. -/
structure Lays (st : Structure NamedField) : Prop where
  serves : ∃ purpose, w.Serves purpose st.decl ∧ st.madeUp = (purpose != .declared)
  planned : ∀ s ∈ st.slots, ∃ f ∈ st.decl.fields,
    f.Plans w.library w.place (s.map NamedField.view)
  complete : ∀ f ∈ st.decl.fields, ∃ s ∈ st.slots,
    f.Plans w.library w.place (s.map NamedField.view)
  inOrder : w.options.reorderFields = false ∨ st.madeUp = true →
    List.Forall₂ (FieldDecl.Plans w.library w.place) st.decl.fields
      (st.slots.map (Slot.map NamedField.view))

/-- What holds of a roster at every time. -/
structure Sound (r : Roster) : Prop where
  structures : ∀ st ∈ r.structures.all, w.Lays st
  recorded : ∀ name record, r.expansions.get? name = some record →
    ∃ st ∈ r.structures.all, st.source = name ∧ expansionRecord? st.slots = some record
  records : ∀ st ∈ r.structures.all, (expansionRecord? st.slots).isSome →
    (r.expansions.get? st.source).isSome
  globals : ∀ name ∈ r.globals.names, name ≠ ""
  declared : ∀ source d, r.declared.get? source = some d → d.name ≠ ""
  enums : ∀ e ∈ r.enums, e.name ≠ "" ∧ ∀ v ∈ e.values, v.name ≠ ""

theorem sound_empty : w.Sound .empty := by
  constructor <;> simp [Roster.empty, StructureLists.empty, StructureLists.all, Table.empty,
    Table.get?, NameTable.empty, NameTable.names]

/-- Slots in the order that the options ask for. -/
def ordered (s : StructDecl) (purpose : Purpose) (slots : List (Slot NamedField)) :
    List (Slot NamedField) :=
  (if w.options.reorderFields && purpose == .declared then w.arrangeSlots s slots
    else (slots, [])).1

/-- The slots of a structure for a purpose, once they have their names. -/
def slotsFor (s : StructDecl) (purpose : Purpose) (slots : List (Slot NamedField)) :
    List (Slot NamedField) :=
  if purpose = .result then markResponse (w.ordered s purpose slots)
  else w.ordered s purpose slots

theorem perm_ordered (s : StructDecl) (purpose : Purpose) (slots : List (Slot NamedField)) :
    (w.ordered s purpose slots).Perm slots := by
  rw [ordered, arrangeSlots]
  dsimp only
  split
  · split <;> exact perm_arrange _ _
  · exact .refl _

theorem map_slotsFor {β : Type} {g : NamedField → β}
    (hg : ∀ f, g { f with isResponse := true } = g f) (s : StructDecl) (purpose : Purpose)
    (slots : List (Slot NamedField)) :
    (w.slotsFor s purpose slots).map (Slot.map g) =
      (w.ordered s purpose slots).map (Slot.map g) := by
  rw [slotsFor]
  split
  · exact map_markResponse hg _
  · rfl

/-- A structure whose slots are the named plans is laid out as planned. -/
theorem Lays.of_plans (purpose : Purpose) {plans : List (Slot FieldPlan)} {t : NameTable}
    {st : Structure NamedField} (hserves : w.Serves purpose st.decl)
    (hplans : planSlots w.options w.library w.place st.decl = .ok plans)
    (hslots : st.slots = w.slotsFor st.decl purpose ((nameSlots w.options plans).run t).1)
    (hmade : st.madeUp = (purpose != .declared)) : w.Lays st := by
  have hall := planSlots_eq_ok hplans
  rw [← view_nameSlots w.options plans t] at hall
  have hview := w.map_slotsFor (g := NamedField.view) (fun _ => rfl) st.decl purpose
    ((nameSlots w.options plans).run t).1
  rw [← hslots] at hview
  -- in whatever order, the slots have the views of the named plans
  have hviews : ∀ v, v ∈ st.slots.map (Slot.map NamedField.view) ↔
      v ∈ ((nameSlots w.options plans).run t).1.map (Slot.map NamedField.view) := by
    intro v
    rw [hview]
    simp only [List.mem_map, (w.perm_ordered _ _ _).mem_iff]
  refine ⟨⟨purpose, hserves, hmade⟩, ?_, ?_, ?_⟩
  · intro slot hslot
    exact exists_of_mem_forall₂ hall ((hviews _).mp (List.mem_map_of_mem hslot))
  · intro f hf
    obtain ⟨v, hv, hplans⟩ := exists_of_mem_forall₂ hall.flip hf
    obtain ⟨slot, hslot, rfl⟩ := List.mem_map.mp ((hviews v).mpr hv)
    exact ⟨slot, hslot, hplans⟩
  · intro horder
    -- only declared structures are ever put into another order
    have hkeep : (w.options.reorderFields && purpose == .declared) = false := by
      rcases horder with h | h
      · rw [h, Bool.false_and]
      · rw [hmade] at h
        cases purpose <;> simp_all
    rw [hview, ordered, hkeep]
    exact hall

/-! ## Steps keep a roster sound -/

/-- A step that keeps a roster sound. -/
abbrev Keeps {α : Type} (x : Install α) : Prop :=
  Ensures w.Sound x fun _ => w.Sound

theorem keeps_report (ds : List Diagnostic) : w.Keeps (report ds) :=
  .modify fun _ h => ⟨h.structures, h.recorded, h.records, h.globals, h.declared, h.enums⟩

theorem globalCandidate_ne_empty {source : String} {madeUp : Bool} {name : String}
    (h : w.globalCandidate source madeUp = .ok name) : name ≠ "" := by
  obtain ⟨exported, hexported, h⟩ := bind_eq_ok.mp h
  have hne : exported ≠ "" := by
    rintro rfl
    cases Naming.isIdentifier_of_identify (identify_of_identified hexported)
  rw [← pure_eq_ok.mp h]
  split
  · simp
  · exact hne

theorem ensures_allocateGlobal (source : String) (madeUp : Bool) :
    Ensures w.Sound (w.allocateGlobal source madeUp) fun name r => name ≠ "" ∧ w.Sound r := by
  rw [allocateGlobal]
  refine .bind (.lift fun candidate r hcandidate hr =>
    (⟨globalCandidate_ne_empty w hcandidate, hr⟩ : candidate ≠ "" ∧ w.Sound r))
    fun candidate => .given fun hcandidate => ?_
  refine .bind_get fun r hr => ?_
  have hadd := NameTable.add_ne_empty hr.globals hcandidate source
  exact .bind (.set fun _ => ⟨hadd.1, hr.structures, hr.recorded, hr.records, hadd.2, hr.declared,
    hr.enums⟩) fun _ => .pure fun _ h => h

theorem keeps_reserveGlobal {name : String} (hname : name ≠ "") (key : String) :
    w.Keeps (w.reserveGlobal name key) := by
  rw [reserveGlobal]
  refine .bind_get fun r hr => ?_
  split
  · next globals hglobals =>
    refine .set fun _ => ⟨hr.structures, hr.recorded, hr.records, ?_, hr.declared, hr.enums⟩
    exact NameTable.reserve_of hr.globals hname hglobals
  · exact .throw

theorem keeps_declare {name : String} (hname : name ≠ "") (source : String) (kind : DeclKind) :
    w.Keeps (declare source name kind) := by
  refine .modify fun r h =>
    ⟨h.structures, h.recorded, h.records, h.globals, ?_, h.enums⟩
  intro other d hd
  rw [Table.get?_set] at hd
  split at hd
  · rw [← Option.some.inj hd]
    exact hname
  · exact h.declared other d hd

theorem ensures_nameFields {s : StructDecl} {purpose : Purpose} (hserves : w.Serves purpose s)
    (name : String) (kind : StructKind) :
    Ensures w.Sound (w.nameFields s name kind purpose) fun st r =>
      (st.decl = s ∧ w.Lays st) ∧ w.Sound r := by
  rw [nameFields]
  refine .bind (.lift fun plans r hplans hr => (⟨hplans, hr⟩ :
    planSlots w.options w.library w.place s = .ok plans ∧ w.Sound r)) fun plans => ?_
  refine .given fun hplans => ?_
  dsimp only
  cases takenId? plans with
  | some taken => exact .bind (Q := fun _ _ => False) .throw fun _ _ _ _ h _ => h.elim
  | none =>
      refine .bind (keeps_report w _) fun _ => .pure fun r hr => ⟨⟨rfl, ?_⟩, hr⟩
      exact .of_plans w purpose hserves hplans rfl rfl

/-- A structure that is listed gets its record, unless its name has one. -/
theorem Sound.push {r : Roster} (h : w.Sound r) {st : Structure NamedField} (hst : w.Lays st) :
    w.Sound { r with
      structures := r.structures.push st
      expansions :=
        match expansionRecord? st.slots with
        | some record => r.expansions.setNew st.source record
        | none => r.expansions } := by
  refine ⟨?_, ?_, ?_, h.globals, h.declared, h.enums⟩
  · intro other hother
    rcases StructureLists.mem_all_push.mp hother with hother | rfl
    · exact h.structures other hother
    · exact hst
  · intro name record hrecord
    -- a record is an old one, or the new one under a name that had none
    cases hnew : expansionRecord? st.slots with
    | none =>
        rw [hnew] at hrecord
        obtain ⟨other, hother, hsource⟩ := h.recorded name record hrecord
        exact ⟨other, StructureLists.mem_all_push.mpr (Or.inl hother), hsource⟩
    | some new =>
        rw [hnew, Table.get?_setNew, Option.or_eq_some_iff] at hrecord
        rcases hrecord with hrecord | ⟨_, hrecord⟩
        · obtain ⟨other, hother, hsource⟩ := h.recorded name record hrecord
          exact ⟨other, StructureLists.mem_all_push.mpr (Or.inl hother), hsource⟩
        · split at hrecord
          · next heq =>
            cases hrecord
            exact ⟨st, StructureLists.mem_all_push.mpr (Or.inr rfl), heq.symm, hnew⟩
          · cases hrecord
  · intro other hother hsome
    rcases StructureLists.mem_all_push.mp hother with hother | rfl
    · -- a name keeps the first record that it gets
      have hold := h.records other hother hsome
      dsimp only
      split
      · rw [Table.get?_setNew, Option.isSome_or, hold, Bool.true_or]
      · exact hold
    · obtain ⟨record, hrecord⟩ := Option.isSome_iff_exists.mp hsome
      dsimp only
      rw [hrecord]
      dsimp only
      rw [Table.get?_setNew, if_pos rfl, Option.isSome_or]
      exact Bool.or_true _

/-- The last steps of naming a structure, the same whether it is declared or made up. -/
def listStructure (s : StructDecl) (name : String) (kind : StructKind) (purpose : Purpose) :
    Install String := do
  report (w.flagReports s)
  let named ← w.nameFields s name kind purpose
  modify fun r => { r with
    structures := r.structures.push named
    expansions :=
      match expansionRecord? named.slots with
      | some record => r.expansions.setNew s.name record
      | none => r.expansions }
  return name

theorem addStructure_eq_bind (s : StructDecl) (purpose : Purpose) :
    w.addStructure s purpose = (do
      let name ← w.allocateGlobal s.name (purpose != .declared)
      w.reserveGlobal (constructorOf name) ("new:" ++ s.name)
      w.reserveGlobal (idTableOf name) ("ids:" ++ s.name)
      match StructKind.ofSpelling? s.category with
      | none =>
        report [.unknownCategory w.file s.name s.category]
        return name
      | some kind =>
        if purpose = .declared then declare s.name name (.structLike kind)
        w.listStructure s name kind purpose) :=
  rfl

theorem keeps_listStructure (purpose : Purpose) {s : StructDecl} (hserves : w.Serves purpose s)
    (name : String) (kind : StructKind) : w.Keeps (w.listStructure s name kind purpose) := by
  rw [listStructure]
  refine .bind (keeps_report w _) fun _ => ?_
  refine .bind (ensures_nameFields w hserves name kind) fun st => .given fun hst => ?_
  obtain ⟨rfl, hlays⟩ := hst
  exact .bind (.modify fun _ h => h.push w hlays) fun _ => .pure fun _ h => h

theorem keeps_addStructure (purpose : Purpose) {s : StructDecl} (hserves : w.Serves purpose s) :
    w.Keeps (w.addStructure s purpose) := by
  rw [addStructure_eq_bind]
  refine .bind (ensures_allocateGlobal w _ _) fun name => .given fun hname => ?_
  refine .bind (keeps_reserveGlobal w (by simp [constructorOf]) _) fun _ => ?_
  refine .bind (keeps_reserveGlobal w (by simp [idTableOf]) _) fun _ => ?_
  split
  · exact .bind (keeps_report w _) fun _ => .pure fun _ h => h
  · next kind _ =>
    split
    · exact .bind (keeps_declare w hname _ _)
        fun _ => keeps_listStructure w purpose hserves name kind
    · exact keeps_listStructure w purpose hserves name kind

theorem paramCandidates_eq_ok {fields : List FieldDecl} {candidates : List (String × String)}
    (h : w.paramCandidates fields = .ok candidates) :
    candidates.map Prod.fst = fields.map FieldDecl.name := by
  refine map_eq_of_forall₂ (mapM_eq_ok.mp h) fun f c hc => ?_
  obtain ⟨stem, -, hc⟩ := bind_eq_ok.mp hc
  rw [← pure_eq_ok.mp hc]

/-- Parameters are given for their candidates in order. -/
theorem source_allocateParams (key : String → String) (candidates : List (String × String))
    (t : NameTable) :
    ((allocateParams key candidates).run t).1.map NamedParam.source = candidates.map Prod.fst :=
  map_run_mapM (fun _ _ => rfl) candidates t

/-- The last steps of naming a function, the same with a structure for its result and without. -/
def nameParams (f : FunctionDecl) (name args : String) (result : Option String) :
    Install NamedFunction := do
  let arguments ← w.paramCandidates f.arguments
  let throws ← w.paramCandidates f.throws
  let (arguments, params) := allocateParams id arguments (fixedParams f)
  let (throws, params) := allocateParams throwKey throws params
  return ⟨f, name, params, args, result, arguments, throws⟩

theorem addFunction_eq_bind (service : ServiceDecl) (f : FunctionDecl) (name : String) :
    w.addFunction service f name = (do
      let args ← w.addStructure (argsStruct service f) .arguments
      let result ←
        if f.oneway then pure none
        else some <$> w.addStructure (resultStruct service f) .result
      w.nameParams f name args result) :=
  rfl

/-- A function is named with its parameters in order, and the roster stays as it is. -/
theorem ensures_nameParams {P : Roster → Prop} (f : FunctionDecl) (name args : String)
    (result : Option String) :
    Ensures P (w.nameParams f name args result) fun fn r =>
      (fn.decl = f ∧ fn.name = name ∧ fn.argsStruct = args ∧ fn.resultStruct = result ∧
        fn.argumentNames.map NamedParam.source = f.arguments.map FieldDecl.name) ∧ P r := by
  rw [nameParams]
  refine .bind (Q := fun candidates r =>
    candidates.map Prod.fst = f.arguments.map FieldDecl.name ∧ P r)
    (.lift fun _ _ hc hr => ⟨paramCandidates_eq_ok w hc, hr⟩) fun candidates => ?_
  refine .given fun hcandidates => .bind (Q := fun _ => P) (.lift fun _ _ _ h => h)
    fun throws => .pure fun _ h => ⟨⟨rfl, rfl, rfl, rfl, ?_⟩, h⟩
  exact (source_allocateParams id candidates (fixedParams f)).trans hcandidates

theorem keeps_addFunction {service : ServiceDecl} {f : FunctionDecl}
    (hservice : service ∈ w.place.directory.document.services) (hf : f ∈ service.functions)
    (name : String) : w.Keeps (w.addFunction service f name) := by
  have hparams : ∀ args result, w.Keeps (w.nameParams f name args result) := fun args result =>
    (ensures_nameParams w f name args result).weaken fun _ _ h => h.2
  rw [addFunction_eq_bind]
  refine .bind (keeps_addStructure w .arguments ⟨service, hservice, f, hf, rfl⟩)
    fun args => ?_
  split
  · exact .bind (Q := fun _ => w.Sound) (.pure fun _ h => h) (hparams args)
  · next honeway =>
    have hserves : w.Serves .result (resultStruct service f) :=
      ⟨service, hservice, f, hf, Bool.eq_false_iff.mpr honeway, rfl⟩
    exact .bind (Q := fun _ => w.Sound) (.map (keeps_addStructure w .result hserves))
      (hparams args)

theorem keeps_addFunctions {service : ServiceDecl}
    (hservice : service ∈ w.place.directory.document.services) (names : NameTable)
    (fs : List FunctionDecl) (hfs : ∀ f ∈ fs, f ∈ service.functions) :
    w.Keeps (w.addFunctions service names fs) := by
  induction fs generalizing names with
  | nil => exact .pure fun _ h => h
  | cons f fs ih =>
      rw [addFunctions]
      refine .bind (.lift fun _ _ _ h => h) fun candidate => ?_
      refine .bind (keeps_addFunction w hservice (hfs f List.mem_cons_self) _) fun first => ?_
      refine .bind (ih _ fun g hg => hfs g (List.mem_cons_of_mem _ hg)) fun rest => ?_
      exact .pure fun _ h => h

theorem keeps_addService {s : ServiceDecl} (hs : s ∈ w.place.directory.document.services) :
    w.Keeps (w.addService s) := by
  rw [addService]
  refine .bind (ensures_allocateGlobal w _ _) fun name => .given fun hname => ?_
  refine .bind (keeps_declare w hname _ _) fun _ => ?_
  refine .bind (keeps_addFunctions w hs _ _ fun _ h => h) fun functions => ?_
  refine .bind (keeps_reserveGlobal w (by simp [clientOf]) _) fun _ => ?_
  refine .bind (keeps_reserveGlobal w (by simp [processorOf]) _) fun _ => ?_
  exact .modify fun _ h => ⟨h.structures, h.recorded, h.records, h.globals, h.declared, h.enums⟩

/-- The first value is named from the table, and the others from what it leaves. -/
theorem run_allocateValues_cons (o : Options) (enumName : String) (v : EnumValueDecl)
    (values : List EnumValueDecl) (t : NameTable) :
    ((allocateValues o enumName (v :: values)).run t).1 =
      ⟨v, (t.add (enumName ++ "_" ++ v.name) v.name).1,
        if o.typedEnumText then (t.add (enumName ++ "_" ++ v.name) v.name).1 else v.name⟩ ::
      ((allocateValues o enumName values).run (t.add (enumName ++ "_" ++ v.name) v.name).2).1 := by
  rw [allocateValues, List.mapM_cons]
  rfl

/-- The values of an enum are called after it, so none of their names is empty. -/
theorem allocateValues_ne_empty (o : Options) (enumName : String) (values : List EnumValueDecl)
    (t : NameTable) (ht : ∀ name ∈ t.names, name ≠ "") :
    ∀ v ∈ ((allocateValues o enumName values).run t).1, v.name ≠ "" := by
  induction values generalizing t with
  | nil => exact fun v hv => absurd hv List.not_mem_nil
  | cons d ds ih =>
      have hadd := NameTable.add_ne_empty ht (show enumName ++ "_" ++ d.name ≠ "" by simp)
        d.name
      rw [run_allocateValues_cons]
      intro v hv
      rcases List.mem_cons.mp hv with rfl | hv
      · exact hadd.1
      · exact ih _ hadd.2 v hv

theorem keeps_addEnum (e : EnumDecl) : w.Keeps (w.addEnum e) := by
  rw [addEnum]
  refine .bind (ensures_allocateGlobal w _ _) fun name => .given fun hname => ?_
  refine .bind (keeps_declare w hname _ _) fun _ => ?_
  refine .modify fun r h => ⟨h.structures, h.recorded, h.records, h.globals, h.declared, ?_⟩
  intro other hother
  rcases List.mem_append.mp hother with hother | hother
  · exact h.enums other hother
  · rw [List.mem_singleton.mp hother]
    exact ⟨hname, allocateValues_ne_empty w.options name e.values .empty (by simp)⟩

theorem keeps_addTypedef (t : TypedefDecl) : w.Keeps (w.addTypedef t) := by
  rw [addTypedef]
  refine .bind (ensures_allocateGlobal w _ _) fun name => .given fun hname => ?_
  have hrest : w.Keeps (do
      declare t.name name .typedef
      modify fun r => { r with typedefs := r.typedefs ++ [⟨t, name⟩] }) :=
    .bind (keeps_declare w hname _ _) fun _ => .modify fun _ h =>
      ⟨h.structures, h.recorded, h.records, h.globals, h.declared, h.enums⟩
  split
  · exact .bind (keeps_reserveGlobal w (by simp [constructorOf]) _) fun _ => hrest
  · exact hrest

theorem keeps_addConstant (c : ConstantDecl) : w.Keeps (w.addConstant c) := by
  rw [addConstant]
  refine .bind (ensures_allocateGlobal w _ _) fun name => .given fun hname => ?_
  exact .bind (keeps_declare w hname _ _) fun _ => .modify fun _ h =>
    ⟨h.structures, h.recorded, h.records, h.globals, h.declared, h.enums⟩

theorem keeps_install : w.Keeps w.install := by
  rw [install]
  refine .bind (.forM _ fun s hs => keeps_addService w hs) fun _ => ?_
  refine .bind (.forM _ fun s hs => .bind (keeps_addStructure w .declared hs)
    fun _ => .pure fun _ h => h) fun _ => ?_
  refine .bind (.forM _ fun e _ => keeps_addEnum w e) fun _ => ?_
  refine .bind (.forM _ fun t _ => keeps_addTypedef w t) fun _ => ?_
  exact .forM _ fun c _ => keeps_addConstant w c

/-- A finished roster is sound. -/
theorem sound_roster {r : Roster} (h : w.roster = .ok r) : w.Sound r := by
  obtain ⟨⟨u, r'⟩, hrun, h⟩ := bind_eq_ok.mp h
  rw [← pure_eq_ok.mp h]
  exact keeps_install w .empty u r' w.sound_empty hrun

end Site

end IdlScope

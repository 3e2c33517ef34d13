import IdlScope.Proofs.Accounts
import IdlScope.Proofs.Usage

/-!
# Members — the names inside a structure never collide

Methods, accessors and storage of a structure share one name table. It is filled in three
rounds, and the later ones come between each other, but what a name is does not matter: each is
allocated under a key of its own, and different keys have different names.

* **`FieldView.key`** — the key of a field, which tells the field and, if it stands in place of
  another, its parent.
* **`Allocates`** — a step that allocates names, from any table without repetitions.
* **`Structure.memberEntries`** — the entries of all members, under keys of their own.
* **`members_distinct`** — so their names differ, in every structure of every file.
-/

namespace IdlScope

/-! ## Keys of fields -/

namespace FieldView

/-- The key of a field: its name, behind the name of the field that it stands in place of. -/
def key (v : FieldView) : String :=
  match v.2 with
  | none => v.1.name
  | some origin => origin.parent ++ "." ++ v.1.name

/-- The word in the key of its storage. -/
def storageWord (v : FieldView) : Option String :=
  v.2.map fun _ => "expand"

end FieldView

/-- The keys of a field are made from its name and from its parent's, and its name can be
exported, unless it is spelled by the name of its type. -/
structure FieldPlan.Keyed (f : FieldPlan) : Prop where
  key : f.key = f.view.key
  storageKey : f.storageKey = Naming.tagged f.view.storageWord f.view.key
  exported : f.isNested = false → (Naming.identify f.decl.name).isSome

/-- A field that is not spelled by the name of its type is spelled by its own name. -/
theorem FieldDecl.isSome_of_spelled {o : Options} {file stem : String} {f : FieldDecl}
    (h : identified file (f.spelledBy o) = .ok stem) (hnested : f.isNested o = false) :
    (Naming.identify f.name).isSome := by
  have hspelled : f.spelledBy o = f.name := by
    rw [spelledBy, hnested]
    rfl
  exact hspelled ▸ isSome_of_identified h

theorem keyed_of_plan {o : Options} {file : String} {f : FieldDecl} {plan : FieldPlan}
    (h : f.plan o file = .ok plan) : plan.Keyed := by
  obtain ⟨stem, hstem, h⟩ := bind_eq_ok.mp h
  rw [← pure_eq_ok.mp h]
  exact ⟨rfl, rfl, FieldDecl.isSome_of_spelled hstem⟩

theorem keyed_of_childPlan {o : Options} {file structureName : String} {home : Home}
    {parent child : FieldDecl} {plan : FieldPlan}
    (h : parent.childPlan o file structureName home child = .ok plan) : plan.Keyed := by
  rw [FieldDecl.childPlan] at h
  split at h
  · cases h
  · obtain ⟨stem, hstem, h⟩ := bind_eq_ok.mp h
    rw [← pure_eq_ok.mp h]
    exact ⟨rfl, rfl, FieldDecl.isSome_of_spelled hstem⟩

theorem keyed_of_planSlots {o : Options} {l : Library} {p : Place} {s : StructDecl}
    {slots : List (Slot FieldPlan)} (h : planSlots o l p s = .ok slots) :
    ∀ slot ∈ slots, ∀ f ∈ slot.all, f.Keyed :=
  forall_of_planSlots (fun _ _ => keyed_of_plan) (fun _ _ _ _ => keyed_of_childPlan) h

/-! ## Allocation -/

/-- From a table without repetitions the step comes to one that has grown, and what it gives
has `Q` of any entries that hold those of that table. -/
structure Allocates {α : Type} (x : Allocate α) (Q : List (String × String) → α → Prop) :
    Prop where
  distinct : ∀ t, t.Distinct → (x.run t).2.Distinct
  kept : ∀ t, t.entries ⊆ (x.run t).2.entries
  gives : ∀ t es, (x.run t).2.entries ⊆ es → Q es (x.run t).1

namespace Allocates

variable {α β : Type} {x : Allocate α} {Q : List (String × String) → α → Prop}

theorem weaken {Q' : List (String × String) → α → Prop} (hx : Allocates x Q)
    (h : ∀ es a, Q es a → Q' es a) : Allocates x Q' :=
  ⟨hx.distinct, hx.kept, fun t es hes => h es _ (hx.gives t es hes)⟩

protected theorem pure {a : α} (h : ∀ es, Q es a) : Allocates (pure a) Q :=
  ⟨fun _ h => h, fun _ => List.Subset.refl _, fun _ es _ => h es⟩

protected theorem bind {f : α → Allocate β} {R : List (String × String) → β → Prop}
    (hx : Allocates x Q) (hf : ∀ a, Allocates (f a) fun es b => Q es a → R es b) :
    Allocates (x >>= f) R where
  distinct := fun t ht => (hf _).distinct _ (hx.distinct t ht)
  kept := fun t => List.Subset.trans (hx.kept t) ((hf _).kept _)
  gives := fun t es hes => (hf _).gives _ es hes
    (hx.gives t es (List.Subset.trans ((hf _).kept _) hes))

theorem allocate (candidate key : String) :
    Allocates (allocate candidate key) fun es name => (key, name) ∈ es where
  distinct := fun t ht => (t.gives_add candidate key).distinct ht
  kept := fun t => (t.gives_add candidate key).kept
  gives := fun t _ hes => hes (t.gives_add candidate key).given

protected theorem mapM {f : α → Allocate β} {R : List (String × String) → α → β → Prop}
    (as : List α) (h : ∀ a ∈ as, Allocates (f a) fun es b => R es a b) :
    Allocates (as.mapM f) fun es bs => List.Forall₂ (R es) as bs := by
  induction as with
  | nil => exact .pure fun _ => .nil
  | cons a as ih =>
      rw [List.mapM_cons]
      refine .bind (h a List.mem_cons_self) fun b => .bind (ih fun c hc => h c
        (List.mem_cons_of_mem _ hc)) fun bs => .pure fun es hbs hb => .cons hb hbs

end Allocates

/-! ## Names of fields -/

namespace NamedField

/-- The entries of a field: its storage and its accessors. -/
def entries (f : NamedField) : List (String × String) :=
  (Naming.tagged f.view.storageWord f.view.key, f.name) ::
    f.accessors.map fun a => (Naming.tagged (some a.role.keyWord) f.view.key, a.name)

/-- The names of a field: its storage and its accessors. -/
def memberNames (f : NamedField) : List String :=
  f.name :: f.accessors.map Accessor.name

/-- The words in the keys of a field. -/
def keyWords (f : NamedField) : List (Option String) :=
  f.view.storageWord :: f.accessors.map fun a => some a.role.keyWord

/-- The words in the keys of a field are some of these, in this order. -/
def allKeyWords : List (Option String) :=
  [none, some "expand", some "get", some "set", some "isset", some "read", some "write",
    some "deepequal"]

theorem keyWords_sublist {f : NamedField} {o : Options}
    (h : f.accessors.map Accessor.role = AccessorRole.ofField o f.decl) :
    f.keyWords.Sublist allKeyWords := by
  have hroles : (AccessorRole.ofField o f.decl).Sublist
      [.get, .set, .isSet, .read, .write, .deepEqual] := by
    rw [AccessorRole.ofField]
    split_ifs <;> decide
  have hwords := hroles.map fun role => some role.keyWord
  rw [← h, List.map_map] at hwords
  rw [keyWords, FieldView.storageWord]
  cases f.view.2 with
  | none => exact .cons_cons _ (.cons _ hwords)
  | some origin => exact .cons _ (.cons_cons _ hwords)

theorem map_snd_entries (f : NamedField) : f.entries.map Prod.snd = f.memberNames := by
  simp [entries, memberNames, Function.comp_def]

theorem map_fst_entries (f : NamedField) :
    f.entries.map Prod.fst = f.keyWords.map (Naming.tagged · f.view.key) := by
  simp [entries, keyWords, Function.comp_def]

end NamedField

namespace FieldPlan

/-- The accessors are those that the field has, and each has its entry. -/
def GetsAccessors (o : Options) (f : FieldPlan) (es : List (String × String))
    (as : List Accessor) : Prop :=
  as.map Accessor.role = AccessorRole.ofField o f.decl ∧ ∀ a ∈ as, (a.role.key f.key, a.name) ∈ es

/-- The field is named after the plan, and its storage and its accessors have their entries. -/
structure Gets (o : Options) (f : FieldPlan) (es : List (String × String)) (n : NamedField) :
    Prop where
  view : n.view = f.view
  isNested : n.isNested = f.isNested
  accessors : f.GetsAccessors o es n.accessors
  storage : (f.storageKey, n.name) ∈ es

variable {o : Options} {f : FieldPlan}

theorem Gets.entries_subset {es : List (String × String)} {n : NamedField} (h : f.Gets o es n)
    (hkeyed : f.Keyed) : n.entries ⊆ es := by
  refine List.cons_subset.mpr ⟨?_, fun e he => ?_⟩
  · rw [h.view, ← hkeyed.storageKey]
    exact h.storage
  · obtain ⟨a, ha, rfl⟩ := List.mem_map.mp he
    rw [h.view, ← hkeyed.key]
    exact h.accessors.2 a ha

theorem allocates_accessors : Allocates (f.accessors o) (f.GetsAccessors o) := by
  have hall := Allocates.mapM (AccessorRole.ofField o f.decl)
    (f := fun role => do
      return ⟨role, ← allocate (role.candidate f.stem f.decl.id) (role.key f.key)⟩)
    (R := fun es role (a : Accessor) => a.role = role ∧ (role.key f.key, a.name) ∈ es)
    fun role _ => .bind (.allocate _ _) fun name => .pure fun es hname => ⟨rfl, hname⟩
  refine hall.weaken fun es as has => ⟨?_, fun a ha => ?_⟩
  · rw [map_eq_of_forall₂ (f := id) has fun _ _ h => h.1, List.map_id]
  · obtain ⟨role, -, rfl, hname⟩ := exists_of_mem_forall₂ has ha
    exact hname

theorem allocates_named (as : List Accessor) :
    Allocates (f.named o as) fun es n => f.GetsAccessors o es as → f.Gets o es n :=
  .bind (.allocate _ _) fun _ => .pure fun _ hname has => ⟨rfl, rfl, has, hname⟩

theorem allocates_namedChild : Allocates (f.namedChild o) (f.Gets o) :=
  .bind allocates_accessors fun as => allocates_named as

end FieldPlan

theorem allocates_nameSlot {o : Options} (s : Slot FieldPlan) (as : List Accessor) :
    Allocates (nameSlot o s as) fun es t =>
      s.field.GetsAccessors o es as → ∀ n ∈ t.all, ∃ f ∈ s.all, f.Gets o es n := by
  rw [nameSlot]
  refine .bind (FieldPlan.allocates_named as) fun field => ?_
  cases hs : s.expanded with
  | none =>
      refine .pure fun es hfield has n hn => ⟨s.field, List.mem_cons_self, ?_⟩
      rw [List.mem_singleton.mp hn]
      exact hfield has
  | some plans =>
      refine .bind (.mapM plans fun plan _ => FieldPlan.allocates_namedChild) fun children =>
        .pure fun es hchildren hfield has n hn => ?_
      rcases List.mem_cons.mp hn with rfl | hn
      · exact ⟨s.field, List.mem_cons_self, hfield has⟩
      · obtain ⟨plan, hplan, hgets⟩ := exists_of_mem_forall₂ hchildren hn
        refine ⟨plan, List.mem_cons_of_mem _ ?_, hgets⟩
        rwa [Slot.children, hs]

/-- Every field of named slots is named after one of the plans. -/
theorem allocates_nameSlots {o : Options} (slots : List (Slot FieldPlan)) :
    Allocates (nameSlots o slots) fun es named =>
      ∀ n ∈ named.flatMap Slot.all, ∃ f ∈ slots.flatMap Slot.all, f.Gets o es n := by
  rw [nameSlots]
  refine .bind (.mapM slots fun s _ => FieldPlan.allocates_accessors) fun accessors => ?_
  refine (Allocates.mapM (slots.zip accessors) fun s _ => allocates_nameSlot s.1 s.2).weaken ?_
  intro es named hnamed haccessors n hn
  obtain ⟨slot, hslot, hn⟩ := List.mem_flatMap.mp hn
  obtain ⟨⟨s, as⟩, hs, hgets⟩ := exists_of_mem_forall₂ hnamed hslot
  obtain ⟨f, hf, hgets⟩ := hgets ((List.forall₂_iff_zip.mp haccessors).2 hs) n hn
  exact ⟨f, List.mem_flatMap.mpr ⟨s, (List.of_mem_zip hs).1, hf⟩, hgets⟩

/-! ## Members of a structure -/

/-- The methods of a structure are some of these, in this order. -/
def allMethods : List String :=
  ["Read", "Write", "String", "CountSetFields", "Error", "CarryingUnknownFields", "DeepEqual"]

theorem methodNames_sublist (o : Options) (kind : StructKind) (madeUp : Bool) :
    (methodNames o kind madeUp).Sublist allMethods := by
  unfold methodNames
  cases madeUp <;> cases kind <;> split_ifs <;> decide

theorem distinct_methodTable (o : Options) (kind : StructKind) (madeUp : Bool) :
    (methodTable (methodNames o kind madeUp)).Distinct := by
  have hsub := methodNames_sublist o kind madeUp
  constructor
  · have hkeys : (allMethods.map fun m => Naming.synthetic ("method:" ++ m)).Nodup := by decide
    simpa [methodTable, Function.comp_def] using hkeys.sublist (hsub.map _)
  · simpa [NameTable.names, methodTable, Function.comp_def] using hsub.nodup (by decide)

namespace Structure

/-- The entries of all members of a structure: its methods and its fields. -/
def memberEntries (st : Structure NamedField) : List (String × String) :=
  (methodTable st.methods).entries ++ st.allFields.flatMap NamedField.entries

theorem map_snd_memberEntries (st : Structure NamedField) :
    st.memberEntries.map Prod.snd = st.methods ++ st.allFields.flatMap NamedField.memberNames := by
  rw [memberEntries, List.map_append, List.map_flatMap]
  simp only [NamedField.map_snd_entries, methodTable, List.map_map, Function.comp_def, List.map_id']

end Structure

namespace Site.Names

variable {w : Site} {st : Structure NamedField} {purpose : Purpose}
  {plans : List (Slot FieldPlan)} (h : w.Names st purpose plans)
include h

/-- But for the mark of a response, the slots are those that were named, in whatever order. -/
theorem perm_slots {β : Type} {g : NamedField → β}
    (hg : ∀ f, g { f with isResponse := true } = g f) :
    (st.slots.map (Slot.map g)).Perm
      (((nameSlots w.options plans).run (methodTable st.methods)).1.map (Slot.map g)) := by
  rw [h.slots, w.map_slotsFor hg]
  exact (w.perm_ordered _ _ _).map _

/-- Every field of a structure is named after one of its plans. -/
theorem exists_plan {n : NamedField} (hn : n ∈ st.allFields) :
    ∃ f ∈ plans.flatMap Slot.all, f.Gets w.options st.members.entries n := by
  let g : NamedField → FieldView × Bool × String × List Accessor :=
    fun n => (n.view, n.isNested, n.name, n.accessors)
  have hperm := (h.perm_slots (g := g) fun _ => rfl).flatMap_right Slot.all
  simp only [List.flatMap_map, Slot.all_map, ← List.map_flatMap] at hperm
  obtain ⟨n', hn', heq⟩ := List.mem_map.mp (hperm.mem_iff.mp (List.mem_map_of_mem hn))
  obtain ⟨f, hf, hgets⟩ := (allocates_nameSlots plans).gives _ st.members.entries
    (by rw [h.members]; exact List.Subset.refl _) n' hn'
  simp only [g, Prod.mk.injEq] at heq
  obtain ⟨hview, hnested, hname, haccessors⟩ := heq
  exact ⟨f, hf, hview ▸ hgets.view, hnested ▸ hgets.isNested, haccessors ▸ hgets.accessors,
    hname ▸ hgets.storage⟩

theorem distinct_members : st.members.Distinct := by
  rw [h.members, h.methods]
  exact (allocates_nameSlots plans).distinct _ (distinct_methodTable _ _ _)

theorem methods_subset : (methodTable st.methods).entries ⊆ st.members.entries := by
  rw [h.members]
  exact (allocates_nameSlots plans).kept (methodTable st.methods)

theorem keyed {n : NamedField} (hn : n ∈ st.allFields) : n.entries ⊆ st.members.entries ∧
    n.accessors.map Accessor.role = AccessorRole.ofField w.options n.decl ∧
      (n.isNested = false → (Naming.identify n.decl.name).isSome) := by
  obtain ⟨f, hf, hgets⟩ := h.exists_plan hn
  obtain ⟨slot, hslot, hf⟩ := List.mem_flatMap.mp hf
  have hkeyed := keyed_of_planSlots h.planned slot hslot f hf
  have hdecl : n.decl = f.decl := congrArg Prod.fst hgets.view
  rw [hdecl, hgets.isNested]
  exact ⟨hgets.entries_subset hkeyed, hgets.accessors.1, hkeyed.exported⟩

/-- The slots are the plans, in whatever order. -/
theorem perm_views :
    (st.slots.map (Slot.map NamedField.view)).Perm (plans.map (Slot.map FieldPlan.view)) := by
  rw [← view_nameSlots w.options plans (methodTable st.methods)]
  exact h.perm_slots fun _ => rfl

theorem perm_names :
    (st.slots.map (·.field.decl.name)).Perm (st.decl.fields.map FieldDecl.name) := by
  have hfields := map_eq_of_forall₂ (f := FieldDecl.name)
    (g := fun s : Slot FieldView => s.field.1.name) (planSlots_eq_ok h.planned)
    fun f s hs => by rw [hs.field]
  have hperm := h.perm_views.map fun s : Slot FieldView => s.field.1.name
  rwa [hfields, List.map_map] at hperm

/-- What stands in place of a field has a key behind the name of the field. -/
theorem key_of_mem_children {slot : Slot NamedField} (hslot : slot ∈ st.slots) :
    slot.field.view.key = slot.field.decl.name ∧ ∀ n ∈ slot.children,
      n.view.key = slot.field.decl.name ++ "." ++ n.decl.name := by
  obtain ⟨f, -, hplans⟩ := exists_of_mem_forall₂ (planSlots_eq_ok h.planned)
    (h.perm_views.mem_iff.mp (List.mem_map_of_mem hslot))
  have hfield : slot.field.view = (f, none) := hplans.field
  have hdecl : slot.field.decl = f := congrArg Prod.fst hfield
  refine ⟨by rw [hfield, hdecl]; rfl, fun n hn => ?_⟩
  have hview : n.view ∈ (slot.map NamedField.view).children := by
    rw [Slot.children_map]
    exact List.mem_map_of_mem hn
  cases hfound : f.expansion? w.library w.place with
  | none =>
      rw [Slot.children, hplans.kept hfound] at hview
      exact absurd hview List.not_mem_nil
  | some found =>
      obtain ⟨children, hchildren, hadopts⟩ := hplans.replaced found.1 found.2 hfound
      rw [Slot.children, hchildren] at hview
      obtain ⟨child, -, id, -, hchild⟩ := exists_of_mem_forall₂ hadopts hview
      rw [hchild, hdecl, show n.decl = _ from congrArg Prod.fst hchild]
      rfl

/-- **The keys of all fields differ**, if the names of the declared ones do, and of those that
stand in place of one. -/
theorem nodup_keys (hfields : (st.decl.fields.map FieldDecl.name).Nodup)
    (hchildren : ∀ slot ∈ st.slots, (slot.children.map (·.decl.name)).Nodup)
    (hexported : ∀ n ∈ st.allFields, (Naming.identify n.decl.name).isSome) :
    (st.allFields.map (·.view.key)).Nodup := by
  have hdot : ∀ slot ∈ st.slots, '.' ∉ slot.field.decl.name.toList := fun slot hslot =>
    Naming.dot_not_mem (hexported _ (List.mem_flatMap.mpr ⟨slot, hslot, List.mem_cons_self⟩))
  rw [Structure.allFields, List.map_flatMap, List.nodup_flatMap]
  constructor
  · intro slot hslot
    obtain ⟨hfield, hkeys⟩ := h.key_of_mem_children hslot
    rw [Slot.all, List.map_cons, hfield, List.nodup_cons]
    constructor
    · intro hmem
      obtain ⟨n, hn, hkey⟩ := List.mem_map.mp hmem
      refine hdot slot hslot ?_
      rw [← hkey, hkeys n hn]
      simp
    · have hnames := hchildren slot hslot
      rw [List.Nodup, List.pairwise_map] at hnames ⊢
      refine hnames.imp_of_mem fun {m n} hm hn hne hkey => hne ?_
      rw [hkeys m hm, hkeys n hn] at hkey
      exact (String.append_right_inj _).mp hkey
  · -- the key of a field tells its slot: the dot comes behind the name of the slot's own field
    have hslot : ∀ slot ∈ st.slots, ∀ n ∈ slot.all,
        Naming.beforeDot n.view.key = slot.field.decl.name.toList := by
      intro slot hslot n hn
      obtain ⟨hfield, hkeys⟩ := h.key_of_mem_children hslot
      rcases List.mem_cons.mp hn with rfl | hn
      · rw [hfield, Naming.beforeDot_eq (hdot slot hslot)]
      · rw [hkeys n hn, Naming.beforeDot_append_dot (hdot slot hslot)]
    have hnames := h.perm_names.nodup_iff.mpr hfields
    rw [List.Nodup, List.pairwise_map] at hnames
    refine hnames.imp_of_mem fun {s t} hs ht hne => ?_
    refine List.disjoint_left.mpr fun key hkey hkey' => ?_
    obtain ⟨n, hn, rfl⟩ := List.mem_map.mp hkey
    obtain ⟨n', hn', heq⟩ := List.mem_map.mp hkey'
    refine hne (String.toList_inj.mp ?_)
    rw [← hslot s hs n hn, ← hslot t ht n' hn', heq]

theorem colon_not_mem_key (hexported : ∀ n ∈ st.allFields, (Naming.identify n.decl.name).isSome)
    {n : NamedField} (hn : n ∈ st.allFields) : ':' ∉ n.view.key.toList := by
  have hcolon : ∀ n ∈ st.allFields, ':' ∉ n.decl.name.toList := fun n hn =>
    Naming.colon_not_mem (hexported n hn)
  obtain ⟨slot, hslot, hmem⟩ := List.mem_flatMap.mp hn
  obtain ⟨hfield, hkeys⟩ := h.key_of_mem_children hslot
  have hown := hcolon _ (List.mem_flatMap.mpr ⟨slot, hslot, List.mem_cons_self⟩)
  rcases List.mem_cons.mp hmem with rfl | hmem
  · rwa [hfield]
  · rw [hkeys n hmem]
    simp [hown, hcolon n hn]

theorem memberEntries_subset : st.memberEntries ⊆ st.members.entries := by
  refine List.append_subset.mpr ⟨h.methods_subset, fun e he => ?_⟩
  obtain ⟨n, hn, he⟩ := List.mem_flatMap.mp he
  exact (h.keyed hn).1 he

theorem keyWords_sublist {n : NamedField} (hn : n ∈ st.allFields) :
    n.keyWords.Sublist NamedField.allKeyWords :=
  NamedField.keyWords_sublist (h.keyed hn).2.1

theorem colon_not_mem_keyWords {n : NamedField} (hn : n ∈ st.allFields) :
    ∀ w ∈ n.keyWords, ∀ v ∈ w, ':' ∉ v.toList := fun w hw =>
  (by decide : ∀ w ∈ NamedField.allKeyWords, ∀ v ∈ w, ':' ∉ v.toList) w
    ((h.keyWords_sublist hn).subset hw)

/-- No key of a method is one of a field, since no word of a field is the one of methods. -/
theorem method_ne_key (hexported : ∀ n ∈ st.allFields, (Naming.identify n.decl.name).isSome)
    {m : String} (hm : m ∈ st.methods) {n : NamedField} (hn : n ∈ st.allFields)
    {w : Option String} (hw : w ∈ n.keyWords) :
    Naming.tagged (some "method") m ≠ Naming.tagged w n.view.key := by
  intro hkey
  have hmethod : ':' ∉ m.toList := (by decide : ∀ m ∈ allMethods, ':' ∉ m.toList) m
    ((methodNames_sublist _ _ _).subset (h.methods ▸ hm))
  obtain ⟨rfl, -⟩ := Naming.tagged_inj (h.colon_not_mem_keyWords hn w hw)
    (h.colon_not_mem_key hexported hn) hmethod hkey.symm
  exact (by decide : some "method" ∉ NamedField.allKeyWords)
    ((h.keyWords_sublist hn).subset hw)

/-- The methods and the fields of a structure have keys of their own. -/
theorem nodup_memberKeys (hfields : (st.decl.fields.map FieldDecl.name).Nodup)
    (hchildren : ∀ slot ∈ st.slots, (slot.children.map (·.decl.name)).Nodup)
    (hexported : ∀ n ∈ st.allFields, (Naming.identify n.decl.name).isSome) :
    (st.memberEntries.map Prod.fst).Nodup := by
  rw [Structure.memberEntries, List.map_append, List.map_flatMap, List.nodup_append]
  simp only [NamedField.map_fst_entries]
  refine ⟨h.methods ▸ (distinct_methodTable _ _ _).keys, ?_, ?_⟩
  · exact Naming.nodup_tagged _ _ (h.nodup_keys hfields hchildren hexported)
      (fun n hn => (h.keyWords_sublist hn).nodup (by decide))
      (fun n hn => h.colon_not_mem_key hexported hn) fun n hn => h.colon_not_mem_keyWords hn
  · rintro key hmethod _ hfield rfl
    obtain ⟨e, he, rfl⟩ := List.mem_map.mp hmethod
    obtain ⟨m, hm, rfl⟩ := List.mem_map.mp he
    obtain ⟨n, hn, hfield⟩ := List.mem_flatMap.mp hfield
    obtain ⟨w, hw, hkey⟩ := List.mem_map.mp hfield
    exact h.method_ne_key hexported hm hn hw hkey.symm

/-- The methods and the fields of a structure have different names. -/
theorem nodup_memberNames (hfields : (st.decl.fields.map FieldDecl.name).Nodup)
    (hchildren : ∀ slot ∈ st.slots, (slot.children.map (·.decl.name)).Nodup)
    (hnested : ∀ n ∈ st.allFields, n.isNested = true → (Naming.identify n.decl.name).isSome) :
    (st.methods ++ st.allFields.flatMap NamedField.memberNames).Nodup := by
  have hexported : ∀ n ∈ st.allFields, (Naming.identify n.decl.name).isSome := by
    intro n hn
    cases hcase : n.isNested with
    | true => exact hnested n hn hcase
    | false => exact (h.keyed hn).2.2 hcase
  rw [← Structure.map_snd_memberEntries]
  exact h.distinct_members.nodup_names h.memberEntries_subset
    (h.nodup_memberKeys hfields hchildren hexported)

end Site.Names

/-! ## Members of a finished file -/

/-- **Members never collide.** In every file that a run comes to and in every structure of it,
declared or made up: if the declared fields have different names, so have the fields that stand
in place of each of them, and the name of each field that is spelled by its type can be exported
as well, then the methods, the storage of all fields and all their accessors have different
names. These are the methods of a structure of its kind, and each field has all the accessors that
a field of its type has under the options. -/
theorem members_distinct (o : Options) (requests : List Request) {file : String} {s : Scope}
    (hs : ((Run.new o).serveAll requests).library.scope? file = some s)
    {st : Structure Field} (hst : st ∈ s.structures.all)
    (hfields : (st.decl.fields.map FieldDecl.name).Nodup)
    (hchildren : ∀ slot ∈ st.slots, (slot.children.map (·.decl.name)).Nodup)
    (hnested : ∀ f ∈ st.allFields, f.isNested = true → (Naming.identify f.decl.name).isSome) :
    (st.methods ++ st.allFields.flatMap fun f => f.toNamedField.memberNames).Nodup ∧
      st.methods = methodNames o st.kind st.madeUp ∧
      ∀ f ∈ st.allFields, f.accessors.map Accessor.role = AccessorRole.ofField o f.decl := by
  obtain ⟨t, m, k, -, -, hbuilt⟩ := (Run.sound_serveAll o requests).built file s hs
  obtain ⟨r, resolved, hcomes⟩ := hbuilt.comes
  have hmem : st.map Field.toNamedField ∈ r.structures.all := by
    rw [← hcomes.map_structures, StructureLists.all_map]
    exact List.mem_map_of_mem hst
  obtain ⟨⟨purpose, plans, hnames⟩, -⟩ := (Site.accounts_roster hcomes.named).structures _ hmem
  have hdistinct := hnames.nodup_memberNames hfields (fun named hnamed => ?_)
    fun n hn hcase => ?_
  · rw [Structure.allFields_map, List.flatMap_map] at hdistinct
    refine ⟨hdistinct, hnames.methods, fun f hf => ?_⟩
    have hnamed : f.toNamedField ∈ (st.map Field.toNamedField).allFields := by
      rw [Structure.allFields_map]
      exact List.mem_map_of_mem hf
    exact (hnames.keyed hnamed).2.1
  · obtain ⟨slot, hslot, rfl⟩ := List.mem_map.mp hnamed
    rw [Slot.children_map, List.map_map]
    exact hchildren slot hslot
  · rw [Structure.allFields_map] at hn
    obtain ⟨f, hf, rfl⟩ := List.mem_map.mp hn
    exact hnested f hf hcase

set_option maxRecDepth 100000 in
/-- The holder has a field in place of its item, and all its members have different names. -/
theorem members_distinct_holder : ∃ s, (Sample.library {}).scope? "user.thrift" = some s ∧
    ∃ st ∈ s.structures.all, st.source = "Holder" ∧ st.expandedFields.length = 1 ∧
      (st.methods ++ st.allFields.flatMap fun f => f.toNamedField.memberNames).Nodup ∧
      ∀ f ∈ st.allFields, [AccessorRole.get, .read, .write] ⊆ f.accessors.map Accessor.role := by
  have hfound : ((Sample.library {}).scope? "user.thrift").any (fun s =>
      s.structures.all.any fun st => st.source == "Holder" && st.expandedFields.length == 1 &&
        decide ((st.decl.fields.map FieldDecl.name).Nodup) &&
        (st.slots.all fun slot => decide ((slot.children.map (·.decl.name)).Nodup)) &&
        st.allFields.all fun f => !f.isNested) = true := by
    decide +kernel
  obtain ⟨s, hs, hfound⟩ := (Option.any_eq_true _ _).mp hfound
  simp only [List.any_eq_true, Bool.and_eq_true, beq_iff_eq, decide_eq_true_eq,
    List.all_eq_true, Bool.not_eq_true'] at hfound
  obtain ⟨st, hst, ⟨⟨⟨hsource, hlength⟩, hfields⟩, hchildren⟩, hnested⟩ := hfound
  have hexported : ∀ f ∈ st.allFields, f.isNested = true →
      (Naming.identify f.decl.name).isSome := by
    intro f hf hcase
    rw [hnested f hf] at hcase
    cases hcase
  obtain ⟨hdistinct, -, hroles⟩ :=
    members_distinct {} [.build Sample.user] hs hst hfields hchildren hexported
  refine ⟨s, hs, st, hst, hsource, hlength, hdistinct, fun f hf => ?_⟩
  rw [hroles f hf, AccessorRole.ofField]
  simp

end IdlScope

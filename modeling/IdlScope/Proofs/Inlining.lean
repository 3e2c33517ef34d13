import IdlScope.Proofs.Usage

/-!
# Inlining — expansion replaces a field by the fields of its structure

A field that expands gives its place to the fields of the structure it refers to, one level
deep: what comes in its place does not expand again, even where it refers to the structure
that it stands in.

* **`FieldDecl.ExpandsTo`** — when a field expands and into what, spelled out.
* **`FieldDecl.inlined`** — what stands for a field in generated code.
* **`expansion_is_inlining`** — the fields of a listed structure are its declared ones, the
  expanded ones hold the fields of what they refer to, numbered from their parent, and the
  record of the structure says which these are.
-/

namespace IdlScope

/-! ## When a field expands -/

/-- The field is of a structure type, the structure is found, and one of the two asks for it. -/
structure FieldDecl.ExpandsTo (l : Library) (p : Place) (f : FieldDecl) (q : Place)
    (st : StructDecl) : Prop where
  category : f.type.category.isStructLike = true
  found : l.structureOf? p f.type = some (q, st)
  asked : Flag.read f.annotations expandKey = .true ∨ st.expandable = some true ∨
    st.expandable = none ∧ Flag.read st.annotations expandableKey = .true

theorem StructDecl.isExpandable_iff (st : StructDecl) :
    st.isExpandable = true ↔ st.expandable = some true ∨
      st.expandable = none ∧ Flag.read st.annotations expandableKey = .true := by
  rw [StructDecl.isExpandable]
  cases st.expandable with
  | none => simp [Flag.isTrue]
  | some b => simp

theorem FieldDecl.expansion?_eq_some_iff {l : Library} {p : Place} {f : FieldDecl} {q : Place}
    {st : StructDecl} : f.expansion? l p = some (q, st) ↔ f.ExpandsTo l p q st := by
  rw [FieldDecl.expansion?]
  split
  · next hcategory =>
    rw [Option.filter_eq_some_iff]
    simp only [FieldDecl.expandsInto, hcategory, Bool.true_and, Option.any_some, Bool.or_eq_true,
      StructDecl.isExpandable_iff, Flag.isTrue, beq_iff_eq]
    exact ⟨fun h => ⟨hcategory, h.1, h.2⟩, fun h => ⟨h.found, h.asked⟩⟩
  · next hcategory => exact ⟨fun h => (by cases h), fun h => absurd h.category hcategory⟩

/-- A child in place of its parent has another number, and nothing else is changed. -/
def FieldDecl.inPlaceOf (parent : FieldDecl) (home : Home) (child : FieldDecl) : FieldView :=
  ({ child with id := child.id + 1000 * parent.id }, some ⟨child, parent.name, home⟩)

/-- What stands for a field in generated code. -/
def FieldDecl.inlined (l : Library) (p : Place) (f : FieldDecl) : List FieldView :=
  match f.expansion? l p with
  | none => [(f, none)]
  | some (q, st) => st.fields.map (f.inPlaceOf q.home)

/-- The number of a child is found if neither it nor what its parent lends is out of range. -/
theorem expandedId?_eq_some_iff {child parent id : Int} : expandedId? child parent = some id ↔
    isFieldId (1000 * parent) = true ∧ isFieldId (child + 1000 * parent) = true ∧
      id = child + 1000 * parent := by
  have hbase : parent * idFactor = 1000 * parent := Int.mul_comm _ _
  rw [expandedId?, hbase, Int.add_comm child]
  split
  · next hrange =>
    rw [Bool.and_eq_true] at hrange
    rw [Option.some.injEq, eq_comm]
    exact ⟨fun h => ⟨hrange.1, hrange.2, h⟩, fun h => h.2.2⟩
  · next hrange =>
    refine ⟨fun h => (by cases h), fun h => absurd ?_ hrange⟩
    rw [h.1, h.2.1, Bool.and_true]

theorem expandedId?_eq_none_iff {child parent : Int} : expandedId? child parent = none ↔
    ¬ (isFieldId (1000 * parent) = true ∧ isFieldId (child + 1000 * parent) = true) := by
  rw [Option.eq_none_iff_forall_ne_some]
  simp only [ne_eq, expandedId?_eq_some_iff]
  exact ⟨fun h hrange => h _ ⟨hrange.1, hrange.2, rfl⟩, fun h id hid => h ⟨hid.1, hid.2.1⟩⟩

/-- Adopted children are the fields of the structure in order, numbered from their parent. -/
theorem FieldDecl.eq_of_adopts {parent : FieldDecl} {home : Home} {fields : List FieldDecl}
    {children : List FieldView} (h : List.Forall₂ (parent.Adopts home) fields children) :
    children = fields.map (parent.inPlaceOf home) ∧ ∀ c ∈ children, isFieldId c.1.id = true := by
  induction h with
  | nil => simp
  | @cons child view fields children hadopts _ ih =>
      obtain ⟨id, hid, rfl⟩ := hadopts
      obtain ⟨-, hrange, rfl⟩ := expandedId?_eq_some_iff.mp hid
      refine ⟨by rw [List.map_cons, ← ih.1, FieldDecl.inPlaceOf], ?_⟩
      intro c hc
      rcases List.mem_cons.mp hc with rfl | hc
      · exact hrange
      · exact ih.2 c hc

/-! ## Planned slots -/

section Plans

variable {l : Library} {p : Place} {f : FieldDecl} {s : Slot FieldView} (h : f.Plans l p s)
include h

theorem FieldDecl.Plans.isExpanded_iff :
    s.isExpanded = true ↔ ∃ q st, f.ExpandsTo l p q st := by
  simp only [← FieldDecl.expansion?_eq_some_iff]
  cases hfound : f.expansion? l p with
  | none => simp [Slot.isExpanded, h.kept hfound]
  | some found =>
      obtain ⟨q, st⟩ := found
      obtain ⟨children, hchildren, -⟩ := h.replaced q st hfound
      simp [Slot.isExpanded, hchildren]

theorem FieldDecl.Plans.isExpanded_eq : s.isExpanded = (f.expansion? l p).isSome := by
  rw [Bool.eq_iff_iff, h.isExpanded_iff, Option.isSome_iff_exists, Prod.exists]
  simp only [FieldDecl.expansion?_eq_some_iff]

theorem FieldDecl.Plans.children_eq {q : Place} {st : StructDecl}
    (hexpands : f.ExpandsTo l p q st) :
    s.children = st.fields.map (f.inPlaceOf q.home) ∧
      ∀ c ∈ s.children, isFieldId c.1.id = true := by
  obtain ⟨children, hchildren, hall⟩ :=
    h.replaced q st (FieldDecl.expansion?_eq_some_iff.mpr hexpands)
  rw [Slot.children, hchildren]
  exact FieldDecl.eq_of_adopts hall

theorem FieldDecl.Plans.flattened_eq : s.flattened = f.inlined l p := by
  rw [FieldDecl.inlined]
  cases hfound : f.expansion? l p with
  | none =>
      rw [Slot.flattened, h.kept hfound]
      exact congrArg (fun a => [a]) h.field
  | some found =>
      obtain ⟨q, st⟩ := found
      obtain ⟨children, hchildren, hall⟩ := h.replaced q st hfound
      rw [Slot.flattened, hchildren]
      exact (FieldDecl.eq_of_adopts hall).1

/-- A plan on a library is one on every larger library. -/
theorem FieldDecl.Plans.mono {m : Library} (hle : l ≤ m) (hl : l.Closed) (hp : p.Covered l) :
    f.Plans m p s := by
  have hexpansion := FieldDecl.expansion?_eq hle hl hp f
  exact ⟨h.field, fun hnone => h.kept (hexpansion ▸ hnone),
    fun q target hsome => h.replaced q target (hexpansion ▸ hsome)⟩

end Plans

/-! ## Records -/

namespace Table

variable {α : Type}

theorem get?_foldl_set (entries : List (String × α)) (t : Table α) {name : String}
    (h : name ∉ entries.map Prod.fst) :
    (entries.foldl (fun t e => t.set e.1 e.2) t).get? name = t.get? name := by
  induction entries generalizing t with
  | nil => rfl
  | cons e es ih =>
      rw [List.map_cons, List.mem_cons, not_or] at h
      rw [List.foldl_cons, ih _ h.2, get?_set, if_neg h.1]

/-- A table of entries whose names differ has each of them. -/
theorem get?_ofList {entries : List (String × α)} (h : (entries.map Prod.fst).Nodup)
    {name : String} {a : α} (ha : (name, a) ∈ entries) : (ofList entries).get? name = some a := by
  rw [ofList]
  generalize empty = t
  induction entries generalizing t with
  | nil => exact absurd ha List.not_mem_nil
  | cons e es ih =>
      rw [List.map_cons, List.nodup_cons] at h
      rw [List.foldl_cons]
      rcases List.mem_cons.mp ha with rfl | ha
      · rw [get?_foldl_set _ _ h.1, get?_set, if_pos rfl]
      · exact ih h.2 ha _

end Table

/-- The name of each field of a structure, and whether it expands. -/
def slotMarks (slots : List (Slot NamedField)) : List (String × Bool) :=
  slots.map fun s => (s.field.decl.name, s.isExpanded)

theorem expansionRecord?_eq (slots : List (Slot NamedField)) :
    Site.expansionRecord? slots =
      if (slotMarks slots).any Prod.snd then
        some (.ofList (slotMarks slots))
      else none := by
  rw [Site.expansionRecord?, slotMarks, List.any_map]
  rfl

/-- The record of a structure says of each of its fields whether it expands, if their names
differ. -/
theorem isExpanded_expansionRecord? {slots : List (Slot NamedField)}
    (h : ((slotMarks slots).map Prod.fst).Nodup) {slot : Slot NamedField} (hslot : slot ∈ slots) :
    (Site.expansionRecord? slots).any (·.isExpanded slot.field.decl.name) = slot.isExpanded := by
  have hmem : (slot.field.decl.name, slot.isExpanded) ∈ slotMarks slots :=
    List.mem_map_of_mem hslot
  rw [expansionRecord?_eq]
  split
  · rw [Option.any_some, ExpansionRecord.isExpanded, Table.get?_ofList h hmem, Option.getD_some]
  · next hnone =>
    cases hmark : slot.isExpanded with
    | false => rfl
    | true => exact absurd (List.any_eq_true.mpr ⟨_, hmem, hmark⟩) hnone

/-- Planned slots are marked as their declarations say. -/
theorem slotMarks_of_plans {l : Library} {p : Place} {fields : List FieldDecl}
    {slots : List (Slot NamedField)}
    (h : List.Forall₂ (FieldDecl.Plans l p) fields (slots.map (Slot.map NamedField.view))) :
    slotMarks slots =
      fields.map fun f => (f.name, (f.expansion? l p).isSome) := by
  have hmarks := map_eq_of_forall₂ (g := fun s : Slot FieldView => (s.field.1.name, s.isExpanded))
    (f := fun f => (f.name, (f.expansion? l p).isSome)) h ?_
  · rw [← hmarks, List.map_map, slotMarks]
    exact List.map_congr_left fun s _ => by rw [Function.comp, Slot.isExpanded_map]; rfl
  · intro f s hplan
    rw [hplan.isExpanded_eq, hplan.field]

namespace Site

/-- A record that is found under the name of a structure is the record of the structure, if
all structures of that name are marked alike. -/
theorem Sound.get?_expansions {w : Site} {r : Roster} (h : w.Sound r) {st : Structure NamedField}
    (hst : st ∈ r.structures.all)
    (halike : ∀ other ∈ r.structures.all, other.source = st.source →
      slotMarks other.slots = slotMarks st.slots) :
    r.expansions.get? st.source = Site.expansionRecord? st.slots := by
  cases hrecord : r.expansions.get? st.source with
  | none =>
      cases hown : expansionRecord? st.slots with
      | none => rfl
      | some record =>
          have := h.records st hst (by rw [hown]; rfl)
          rw [hrecord] at this
          cases this
  | some record =>
      -- the record may be the one of another structure with that name
      obtain ⟨other, hother, hsource, hown⟩ := h.recorded _ _ hrecord
      rw [← hown, expansionRecord?_eq, expansionRecord?_eq, halike other hother hsource]

/-- A structure that is not made up is a declaration of the file. -/
theorem Lays.declared {w : Site} {st : Structure NamedField} (h : w.Lays st)
    (hmade : st.madeUp = false) : st.decl ∈ w.place.directory.document.structLikes := by
  obtain ⟨purpose, hserves, hpurpose⟩ := h.serves
  cases purpose with
  | declared => exact hserves
  | arguments => cases hmade.symm.trans hpurpose
  | result => cases hmade.symm.trans hpurpose

/-- A structure that is made up holds the arguments or the outcome of a function. -/
theorem Lays.madeUp {w : Site} {st : Structure NamedField} (h : w.Lays st)
    (hmade : st.madeUp = true) : ∃ service ∈ w.place.directory.document.services,
      ∃ f ∈ service.functions, st.decl = argsStruct service f ∨
        f.oneway = false ∧ st.decl = resultStruct service f := by
  obtain ⟨purpose, hserves, hpurpose⟩ := h.serves
  cases purpose with
  | declared => cases hmade.symm.trans hpurpose
  | arguments =>
      obtain ⟨service, hservice, f, hf, hdecl⟩ := hserves
      exact ⟨service, hservice, f, hf, .inl hdecl⟩
  | result =>
      obtain ⟨service, hservice, f, hf, honeway, hdecl⟩ := hserves
      exact ⟨service, hservice, f, hf, .inr ⟨honeway, hdecl⟩⟩

/-- The name of a structure that is made up has the mark in it. -/
theorem Lays.mark_mem {w : Site} {st : Structure NamedField} (h : w.Lays st)
    (hmade : st.madeUp = true) : Naming.mark ∈ st.decl.name.toList := by
  have hmark : ∀ key, Naming.mark ∈ (Naming.synthetic key).toList := by
    intro key
    rw [Naming.synthetic, String.toList_ofList]
    exact List.mem_cons_self
  obtain ⟨service, -, f, -, hdecl | ⟨-, hdecl⟩⟩ := h.madeUp hmade
  · rw [hdecl]
    exact hmark _
  · rw [hdecl]
    exact hmark _

/-- Declared structures of one name are one declaration, and made-up names are never declared,
so structures of one name are marked alike. -/
theorem Sound.alike {w : Site} {r : Roster} (h : w.Sound r)
    (hnames : (w.place.directory.document.structLikes.map StructDecl.name).Nodup)
    (hmark : ∀ d ∈ w.place.directory.document.structLikes, Naming.mark ∉ d.name.toList)
    (horder : w.options.reorderFields = false) {st other : Structure NamedField}
    (hst : st ∈ r.structures.all) (hother : other ∈ r.structures.all) (hmade : st.madeUp = false)
    (hsource : other.source = st.source) :
    slotMarks other.slots = slotMarks st.slots := by
  have hlays := h.structures st hst
  have hlays' := h.structures other hother
  have hsource : other.decl.name = st.decl.name := hsource
  -- a made-up name has a mark in it, so it is not the name of a declared structure
  have hplain : other.madeUp = false := by
    rw [← Bool.not_eq_true]
    intro hother
    have hmember := hlays'.mark_mem hother
    rw [hsource] at hmember
    exact hmark _ (hlays.declared hmade) hmember
  have hdecl : other.decl = st.decl :=
    List.inj_on_of_nodup_map hnames (hlays'.declared hplain) (hlays.declared hmade) hsource
  rw [slotMarks_of_plans (hlays.inOrder (.inl horder)),
    slotMarks_of_plans (hlays'.inOrder (.inl horder)), hdecl]

end Site

/-! ## Structures of finished scopes -/

/-- The declaration of a finished field and where the field comes from. -/
def Field.view (f : Field) : FieldView := f.toNamedField.view

/-- The file of a scope with the first includes only, as it was before it had names. -/
def Scope.bare (s : Scope) (count : Nat) : Place :=
  ⟨.here, ⟨s.document, s.linkage.includes.take count, .empty, []⟩⟩

/-- The fields of the structure are the ones of a declaration of the document, or of what is
made up for a function of it. Those that expand hold the fields of the structure they refer
to, as these are declared; a field in place of another is a plain one, so it never expands
itself, whatever it refers to. -/
structure Structure.Inlines (st : Structure Field) (l : Library) (p : Place) : Prop where
  declared : st.madeUp = false → st.decl ∈ p.directory.document.structLikes
  madeUp : st.madeUp = true → ∃ service ∈ p.directory.document.services,
    ∃ f ∈ service.functions, st.decl = Site.argsStruct service f ∨
      f.oneway = false ∧ st.decl = Site.resultStruct service f
  fields : st.slots.map (fun s => s.field.view) = st.decl.fields.map fun f => (f, none)
  expands : ∀ s ∈ st.slots, s.isExpanded = true ↔ ∃ q target, s.field.decl.ExpandsTo l p q target
  children : ∀ s ∈ st.slots, ∀ q target, s.field.decl.ExpandsTo l p q target →
    s.children.map Field.view = target.fields.map (s.field.decl.inPlaceOf q.home) ∧
      ∀ c ∈ s.children, isFieldId c.decl.id = true
  flattened : st.flattenedFields.map Field.view = st.decl.fields.flatMap (FieldDecl.inlined l p)

/-- Slots that were planned for fields in order. -/
theorem Structure.Inlines.of_plans {st : Structure Field} {l : Library} {p : Place}
    (hdeclared : st.madeUp = false → st.decl ∈ p.directory.document.structLikes)
    (hmade : st.madeUp = true → ∃ service ∈ p.directory.document.services,
      ∃ f ∈ service.functions, st.decl = Site.argsStruct service f ∨
        f.oneway = false ∧ st.decl = Site.resultStruct service f)
    (h : List.Forall₂ (FieldDecl.Plans l p) st.decl.fields (st.slots.map (Slot.map Field.view))) :
    st.Inlines l p := by
  have hplan : ∀ s ∈ st.slots, s.field.decl.Plans l p (s.map Field.view) := by
    intro s hs
    obtain ⟨f, -, hplan⟩ := exists_of_mem_forall₂ h (List.mem_map_of_mem hs)
    have hdecl : s.field.decl = f := congrArg Prod.fst hplan.field
    exact hdecl ▸ hplan
  refine ⟨hdeclared, hmade, ?_, ?_, ?_, ?_⟩
  · rw [← map_eq_of_forall₂ h fun _ _ hplan => hplan.field, List.map_map]
    rfl
  · intro s hs
    rw [← Slot.isExpanded_map Field.view]
    exact (hplan s hs).isExpanded_iff
  · intro s hs q target hexpands
    obtain ⟨hchildren, hids⟩ := (hplan s hs).children_eq hexpands
    rw [Slot.children_map] at hchildren hids
    exact ⟨hchildren, fun c hc => hids c.view (List.mem_map_of_mem hc)⟩
  · rw [← flatMap_eq_of_forall₂ h fun _ _ hplan => hplan.flattened_eq, ← Structure.slots_map,
      ← Structure.flattenedFields, Structure.flattenedFields_map]

/-- Before it had names, a file of a run had the includes that its tree has. -/
theorem Scope.Built.bare_eq {s : Scope} {o : Options} {t : Tree} {l : Library} {k : Linkage}
    (h : s.Built o t l k) : s.bare t.includes.length = t.document.bare k := by
  rw [Scope.bare, Document.bare, Document.document_of_scope h.scope, h.take_includes]

/-- **Expansion is inlining, one level deep.** In every scope that a run comes to, a listed
structure has the fields of its declaration in order, those that expand with the fields of
what they refer to, and the record of the structure says which these are. -/
theorem expansion_is_inlining (o : Options) (requests : List Request) {file : String} {s : Scope}
    (hs : ((Run.new o).serveAll requests).library.scope? file = some s)
    (hnames : (s.document.structLikes.map StructDecl.name).Nodup)
    (hmark : ∀ d ∈ s.document.structLikes, Naming.mark ∉ d.name.toList)
    {st : Structure Field} (hst : st ∈ s.structures.all)
    (hfields : (st.decl.fields.map FieldDecl.name).Nodup)
    (horder : o.reorderFields = false ∨ st.madeUp = true) :
    ∃ t : Tree, t.Among (requests.flatMap Request.trees) ∧ s.document = t.document ∧
      st.Inlines ((Run.new o).serveAll requests).library (s.bare t.includes.length) ∧
      ((st.madeUp = true → ∀ other ∈ s.structures.all, other.source = st.source → other = st) →
        ∀ slot ∈ st.slots,
          s.isFieldExpanded st.source slot.field.decl.name = slot.isExpanded) := by
  obtain ⟨t, l, k, ht, hle, hbuilt⟩ := (Run.sound_serveAll o requests).built file s hs
  obtain ⟨r, resolved, hcomes⟩ := hbuilt.comes
  have hsound := Site.sound_roster _ hcomes.named
  have hall : r.structures.all = s.structures.all.map (Structure.map Field.toNamedField) := by
    rw [← hcomes.map_structures, StructureLists.all_map]
  have hmem : st.map Field.toNamedField ∈ r.structures.all := hall ▸ List.mem_map_of_mem hst
  have hlays := hsound.structures _ hmem
  have hplans := hlays.inOrder horder
  refine ⟨t, ht, hcomes.document, ?_, ?_⟩
  · rw [hbuilt.bare_eq]
    have hcovered := t.document.covered_bare hbuilt.covered
    refine .of_plans hlays.declared hlays.madeUp ?_
    have hview : Slot.map NamedField.view ∘ Slot.map Field.toNamedField = Slot.map Field.view :=
      funext fun slot => Slot.map_map _ _ slot
    rw [Structure.slots_map, List.map_map, hview] at hplans
    exact hplans.imp fun f slot hplan => hplan.mono hle hbuilt.closed hcovered
  · intro hsingle slot hslot
    -- declared structures of one name are one, and a made-up one is alone with its name
    have halike : ∀ other ∈ r.structures.all, other.source = st.source →
        slotMarks other.slots = slotMarks (st.map Field.toNamedField).slots := by
      intro other hother hsource
      cases hmade : st.madeUp with
      | false =>
          exact hsound.alike (hcomes.document ▸ hnames) (hcomes.document ▸ hmark)
            (horder.resolve_right (by rw [hmade]; exact Bool.false_ne_true)) hmem hother hmade
            hsource
      | true =>
          rw [hall] at hother
          obtain ⟨field, hfield, rfl⟩ := List.mem_map.mp hother
          rw [hsingle hmade field hfield hsource]
    have hrecord := hsound.get?_expansions hmem halike
    have hdiffer : ((slotMarks (st.map Field.toNamedField).slots).map Prod.fst).Nodup := by
      rw [slotMarks_of_plans hplans, List.map_map]
      exact hfields
    have hslot' : slot.map Field.toNamedField ∈ (st.map Field.toNamedField).slots :=
      List.mem_map_of_mem hslot
    have hmarked := isExpanded_expansionRecord? hdiffer hslot'
    rw [Slot.isExpanded_map, ← hrecord] at hmarked
    rw [Scope.isFieldExpanded, hcomes.expansions]
    exact hmarked

namespace Sample

/-- The holder, of whose fields one refers to a structure that always expands, and a line between
two points, of which one expands because its field asks for it. -/
def drawing : Tree :=
  { user with document := { user.document with
    structs := user.document.structs ++
      [⟨"struct", "Point", [⟨1, "x", .default, .named "i32" .i32, none, []⟩], [], none⟩,
        ⟨"struct", "Line",
          [⟨1, "start", .default, .named "Point" .struct, none, [⟨expandKey, ["true"]⟩]⟩,
            ⟨2, "end", .default, .named "Point" .struct, none, []⟩], [], none⟩] } }

end Sample

set_option maxRecDepth 100000 in
/-- The holder has the field of the item in place of the field that refers to it, and the line has
the field of its start in place of that. -/
theorem expansion_is_inlining_holder :
    ∃ s, ((Run.new {}).serveAll [.build Sample.drawing]).library.scope? "user.thrift" = some s ∧
      ∀ p ∈ [("Holder", [false, true]), ("Line", [true, false])],
        ∃ st ∈ s.structures.all, st.source = p.1 ∧ st.slots.map Slot.isExpanded = p.2 ∧
          (∃ t : Tree, s.document = t.document ∧
            st.Inlines ((Run.new {}).serveAll [.build Sample.drawing]).library
              (s.bare t.includes.length)) ∧
          ∀ slot ∈ st.slots,
            s.isFieldExpanded st.source slot.field.decl.name = slot.isExpanded := by
  have hfound : (((Run.new {}).serveAll [.build Sample.drawing]).library.scope? "user.thrift").any
      (fun s => decide (s.document.structLikes.map StructDecl.name).Nodup &&
        (s.document.structLikes.all fun d => decide (Naming.mark ∉ d.name.toList)) &&
        [("Holder", [false, true]), ("Line", [true, false])].all fun p =>
          s.structures.all.any fun st => st.source == p.1 && !st.madeUp &&
            st.slots.map Slot.isExpanded == p.2 &&
            decide (st.decl.fields.map FieldDecl.name).Nodup) = true := by
    decide +kernel
  obtain ⟨s, hs, hfound⟩ := (Option.any_eq_true _ _).mp hfound
  simp only [Bool.and_eq_true, decide_eq_true_eq, List.all_eq_true, List.any_eq_true, beq_iff_eq,
    Bool.not_eq_true'] at hfound
  obtain ⟨⟨hnames, hmark⟩, hlisted⟩ := hfound
  refine ⟨s, hs, fun p hp => ?_⟩
  obtain ⟨st, hst, ⟨⟨hsource, hmade⟩, hslots⟩, hfields⟩ := hlisted p hp
  obtain ⟨t, -, hdocument, hinlines, hrecord⟩ :=
    expansion_is_inlining {} [.build Sample.drawing] hs hnames hmark hst hfields (.inl rfl)
  exact ⟨st, hst, hsource, hslots, ⟨t, hdocument, hinlines⟩,
    hrecord fun h => by cases hmade.symm.trans h⟩

end IdlScope

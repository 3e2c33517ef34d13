import IdlScope.Proofs.Relocation

/-!
# Flags — which boolean annotations a build has checked

Where the options ask for it, a file is refused if a boolean annotation of one of its structures, or
of a field of one, has a value that is no truth value. The check goes over the declared structures.
Names are given to more than these: the arguments and the exceptions of a function become the fields
of structures that are made up for it, and the annotations of those fields are read as well.

* **`Document.check_eq_ok_iff`** — what the check demands of a file, and no more.
* **`Library.Checked`** — every file of a run has passed the check, so what a look-up finds has.
* **`flags_checked`** — the annotations of every structure of a finished file and of every field
  have truth values only, but for the arguments and exceptions of functions.
-/

namespace IdlScope

/-! ## What the check demands -/

/-- All values that the annotations give for the keys are truth values. -/
def Annotations.Boolean (as : Annotations) (keys : List String) : Prop :=
  ∀ key ∈ keys, ∀ value ∈ (as.values? key).getD [], isTruthValue value = true

/-- The boolean annotations of the field have truth values only. -/
def FieldDecl.Boolean (f : FieldDecl) : Prop :=
  f.annotations.Boolean [expandKey, nestedKey]

instance (as : Annotations) (keys : List String) : Decidable (as.Boolean keys) :=
  inferInstanceAs
    (Decidable (∀ key ∈ keys, ∀ value ∈ (as.values? key).getD [], isTruthValue value = true))

instance (f : FieldDecl) : Decidable f.Boolean :=
  inferInstanceAs (Decidable (f.annotations.Boolean [expandKey, nestedKey]))

/-- The boolean annotations of the structure and of its fields have truth values only. -/
structure StructDecl.Boolean (s : StructDecl) : Prop where
  own : s.annotations.Boolean [expandableKey, aliasKey]
  fields : ∀ f ∈ s.fields, f.Boolean

theorem Annotations.boolean_nil (keys : List String) : Annotations.Boolean [] keys :=
  fun _ _ _ hvalue => absurd hvalue List.not_mem_nil

theorem badFlag?_eq_none_iff {file owner : String} {as : Annotations} {keys : List String} :
    badFlag? file owner as keys = none ↔ as.Boolean keys := by
  simp [badFlag?, Annotations.Boolean]

theorem StructDecl.badFlag?_eq_none_iff {file : String} {s : StructDecl} :
    s.badFlag? file = none ↔ s.Boolean := by
  rw [StructDecl.badFlag?, Option.or_eq_none_iff, List.findSome?_eq_none_iff,
    IdlScope.badFlag?_eq_none_iff]
  simp only [IdlScope.badFlag?_eq_none_iff]
  exact ⟨fun h => ⟨h.1, h.2⟩, fun h => ⟨h.own, h.fields⟩⟩

/-- **A document passes the check exactly if all its structures are well annotated**, or nobody
asked. -/
theorem Document.check_eq_ok_iff {d : Document} {o : Options} :
    d.check o = .ok () ↔ (o.checkAnnotations = true → ∀ s ∈ d.structLikes, s.Boolean) := by
  have hflag : d.badFlag? = none ↔ ∀ s ∈ d.structLikes, s.Boolean := by
    rw [Document.badFlag?, List.findSome?_eq_none_iff]
    simp only [StructDecl.badFlag?_eq_none_iff]
  rw [← hflag, check]
  cases o.checkAnnotations with
  | false => simp
  | true => cases d.badFlag? <;> simp

/-! ## Checked libraries -/

/-- Every file of the library has passed the check. -/
def Library.Checked (o : Options) (l : Library) : Prop :=
  ∀ file s, l.scope? file = some s → s.document.check o = .ok ()

/-- What is added to a checked library has passed the check. -/
theorem Library.Checked.build {o : Options} {l : Library} (hl : l.Checked o) (t : Tree) :
    (l.build o t).2.Checked o := by
  refine (checked_induction (P := fun _ => True) (I := Library.Checked o)
    (fun _ _ _ _ _ => trivial) ?_ ?_ t trivial [] l hl).1.holds
  · intro t l _ hl file s hs
    rw [scope?_meet] at hs
    exact hl file s hs
  · intro t l k s _ hl _ hfree hcheck _ hscope file u hu
    rw [Document.scope?_add hscope hfree] at hu
    split at hu
    · obtain rfl := Option.some.inj hu
      rw [Document.document_of_scope hscope]
      exact hcheck
    · exact hl file u hu

/-- Every library that a run comes to is checked. -/
theorem Run.checked_serveAll (o : Options) (requests : List Request) :
    ((new o).serveAll requests).library.Checked o := by
  rw [(library_serveAll (new o) requests).1]
  have hnew : (new o).library.Checked o := fun _ _ h => (by cases h)
  generalize (new o).library = l at hnew
  show (l.after o _).Checked o
  generalize requests.flatMap Request.trees = ts
  induction ts generalizing l with
  | nil => exact hnew
  | cons t ts ih => exact ih _ (hnew.build t)

/-- **A structure that is looked up is well annotated**, in whatever file it is found. -/
theorem Library.Checked.structureOf? {o : Options} (ho : o.checkAnnotations = true) {l : Library}
    (hl : l.Checked o) {s : Scope} (hs : s.document.check o = .ok ()) {is : List (Option Include)}
    {t : IdlType} {q : Place} {target : StructDecl}
    (h : l.structureOf? ⟨.here, ⟨s.document, is, .empty, []⟩⟩ t = some (q, target)) :
    target.Boolean := by
  obtain ⟨probe, -, rfl, hfound⟩ := mem_of_first? h
  have hmem : target ∈ probe.place.directory.document.structLikes :=
    List.mem_of_find?_eq_some hfound
  rcases reaches_of_structureOf? h with hown | ⟨file, hplace, -⟩
  · rw [hown] at hmem
    exact Document.check_eq_ok_iff.mp hs ho target hmem
  · obtain ⟨u, hu, hplace⟩ := Option.map_eq_some_iff.mp hplace
    rw [← hplace] at hmem
    exact Document.check_eq_ok_iff.mp (hl file u hu) ho target hmem

/-! ## What is named -/

/-- The fields that a made-up structure has are the response, which has no annotations, and the
arguments or exceptions of a function with theirs. -/
theorem Site.Lays.parameter {w : Site} {st : Structure NamedField} (h : w.Lays st)
    (hmade : st.madeUp = true) {f : FieldDecl} (hf : f ∈ st.decl.fields) :
    f.Boolean ∨ ∃ service ∈ w.place.directory.document.services, ∃ fn ∈ service.functions,
      ∃ p ∈ fn.arguments ++ fn.throws, f.name = p.name ∧ f.annotations = p.annotations := by
  obtain ⟨service, hservice, fn, hfn, hdecl | ⟨-, hdecl⟩⟩ := h.madeUp hmade
  · rw [hdecl] at hf
    exact .inr ⟨service, hservice, fn, hfn, f, List.mem_append_left _ hf, rfl, rfl⟩
  · rw [hdecl] at hf
    rcases List.mem_append.mp hf with hf | hf
    · left
      split at hf
      · exact absurd hf List.not_mem_nil
      · rw [List.mem_singleton.mp hf]
        exact Annotations.boolean_nil _
    · obtain ⟨p, hp, rfl⟩ := List.mem_map.mp hf
      exact .inr ⟨service, hservice, fn, hfn, p, List.mem_append_right _ hp, rfl, rfl⟩

theorem Site.Lays.boolean_annotations {w : Site} {st : Structure NamedField} (h : w.Lays st)
    (hdeclared : ∀ d ∈ w.place.directory.document.structLikes, d.Boolean) :
    st.decl.annotations.Boolean [expandableKey, aliasKey] := by
  cases hmade : st.madeUp with
  | false => exact (hdeclared _ (h.declared hmade)).own
  | true =>
      obtain ⟨service, -, fn, -, hdecl | ⟨-, hdecl⟩⟩ := h.madeUp hmade
      · rw [hdecl]
        exact Annotations.boolean_nil _
      · rw [hdecl]
        exact Annotations.boolean_nil _

/-- **What a checked build has read from annotations.** Where the options ask for the check, a file
passes it exactly if its structures and their fields have truth values for all boolean annotations.
So in every scope that a run comes to, this holds of every structure that is declared there, of
every structure that one of its types leads to, and of all structures and fields that it gives
names to: those of fields that stand in place of others, and those of made-up structures. Only a
field of a made-up structure may have other values, and then it is an argument or an exception of a
function, with the annotations that are written there. -/
theorem flags_checked (o : Options) (ho : o.checkAnnotations = true) (requests : List Request) :
    (∀ d : Document, d.check o = .ok () ↔ ∀ st ∈ d.structLikes, st.Boolean) ∧
    ∀ file s, ((Run.new o).serveAll requests).library.scope? file = some s →
      (∀ d ∈ s.document.structLikes, d.Boolean) ∧
      (∀ count t q target, ((Run.new o).serveAll requests).library.structureOf? (s.bare count) t =
        some (q, target) → target.Boolean) ∧
      ∀ st ∈ s.structures.all, st.decl.annotations.Boolean [expandableKey, aliasKey] ∧
        ∀ f ∈ st.allFields, f.decl.Boolean ∨
          st.madeUp = true ∧ f.origin = none ∧ ∃ service ∈ s.document.services,
            ∃ fn ∈ service.functions, ∃ p ∈ fn.arguments ++ fn.throws,
              f.decl.name = p.name ∧ f.decl.annotations = p.annotations := by
  have hiff : ∀ d : Document, d.check o = .ok () ↔ ∀ st ∈ d.structLikes, st.Boolean := by
    intro d
    rw [Document.check_eq_ok_iff]
    exact ⟨fun h => h ho, fun h _ => h⟩
  have hlibrary := Run.sound_serveAll o requests
  have hchecked := Run.checked_serveAll o requests
  generalize ((Run.new o).serveAll requests).library = l at hlibrary hchecked ⊢
  refine ⟨hiff, fun file s hs => ?_⟩
  have hdeclared := (hiff _).mp (hchecked file s hs)
  have hfound : ∀ count t q target, l.structureOf? (s.bare count) t = some (q, target) →
      target.Boolean :=
    fun count t q target h => hchecked.structureOf? ho (hchecked file s hs) h
  refine ⟨hdeclared, hfound, fun st hst => ?_⟩
  obtain ⟨t, m, k, -, hle, hbuilt⟩ := hlibrary.built file s hs
  obtain ⟨r, resolved, hcomes⟩ := hbuilt.comes
  have hlays := hcomes.lays hst
  have hdocument : s.document = t.document := hcomes.document
  rw [hdocument] at hdeclared ⊢
  refine ⟨hlays.boolean_annotations hdeclared, fun f hf => ?_⟩
  obtain ⟨slot, hslot, hf⟩ := List.mem_flatMap.mp hf
  rcases List.mem_cons.mp hf with rfl | hf
  · -- a field of the structure itself
    obtain ⟨f, hf, hplans⟩ := hlays.planned _ (List.mem_map_of_mem hslot)
    have hview : slot.field.view = (f, none) := hplans.field
    have hdecl : slot.field.decl = f := congrArg Prod.fst hview
    have horigin : slot.field.origin = none := congrArg Prod.snd hview
    rw [hdecl]
    cases hmade : st.madeUp with
    | false => exact .inl ((hdeclared _ (hlays.declared hmade)).fields f hf)
    | true => exact (hlays.parameter hmade hf).imp_right fun h => ⟨rfl, horigin, h⟩
  · -- a field in place of another is one of a structure that was found
    obtain ⟨q, target, child, hchild, hexpands, hview⟩ := hbuilt.exists_child hle hst hslot hf
    have hdecl : f.decl = { child with id := child.id + 1000 * slot.field.decl.id } :=
      congrArg Prod.fst hview
    rw [hdecl]
    exact .inl ((hfound _ _ q target hexpands.found).fields child hchild)

/-- An order of an item that expands, and a depot that stores an item with an annotation which is
neither true nor false. -/
def Sample.depot : Tree where
  document := { Document.empty "depot.thrift" with
    structs := [⟨"struct", "Item",
        [⟨1, "id", .default, .named "i32" .i32, none, [⟨"thrift.nested", ["False"]⟩]⟩],
        [⟨"expandable", ["TRUE"]⟩], none⟩,
      ⟨"struct", "Order", [⟨1, "item", .default, .named "Item" .struct, none, []⟩], [], none⟩]
    services := [⟨"Depot", none, none, [⟨"store", false, true, .named "bool" .bool,
      [⟨1, "item", .default, .named "Item" .struct, none, [⟨"thrift.nested", ["maybe"]⟩]⟩],
      [], []⟩], []⟩] }
  includes := []

set_option maxRecDepth 100000 in
/-- The order has the field of the item in place of its own, and what is annotated there and at the
item was checked. -/
theorem flags_checked_depot : ∃ s, ∃ st ∈ s.structures.all, ∃ f ∈ st.allFields,
    ((Run.new { checkAnnotations := true }).serveAll [.build Sample.depot]).library.scope?
      "depot.thrift" = some s ∧ st.source = "Order" ∧ f.origin.isSome = true ∧ f.decl.Boolean ∧
      (∀ d ∈ s.document.structLikes, d.Boolean) ∧
      ∀ d : Document, d.check { checkAnnotations := true } = .ok () ↔
        ∀ st ∈ d.structLikes, st.Boolean := by
  have hfound : (((Run.new { checkAnnotations := true }).serveAll
      [.build Sample.depot]).library.scope? "depot.thrift").any (fun s =>
        s.structures.all.any fun st => st.source == "Order" &&
          st.allFields.any fun f => f.origin.isSome) = true := by
    decide +kernel
  obtain ⟨s, hs, hfound⟩ := (Option.any_eq_true _ _).mp hfound
  simp only [List.any_eq_true, Bool.and_eq_true, beq_iff_eq] at hfound
  obtain ⟨st, hst, hsource, f, hf, horigin⟩ := hfound
  obtain ⟨hiff, hfiles⟩ := flags_checked { checkAnnotations := true } rfl [.build Sample.depot]
  obtain ⟨hdeclared, -, hstructures⟩ := hfiles "depot.thrift" s hs
  refine ⟨s, st, hst, f, hf, hs, hsource, horigin, ?_, hdeclared, hiff⟩
  rcases (hstructures st hst).2 f hf with hboolean | ⟨-, hnone, -⟩
  · exact hboolean
  · rw [hnone] at horigin
    cases horigin

set_option maxRecDepth 100000 in
/-- The depot is built with the check, and the field that is made up for its argument has a boolean
annotation with another value. -/
theorem flags_unchecked : ∃ s, ∃ st ∈ s.structures.all, ∃ f ∈ st.allFields,
    ((Run.new { checkAnnotations := true }).serveAll [.build Sample.depot]).library.scope?
      "depot.thrift" = some s ∧ st.madeUp = true ∧
      f.decl.annotations.values? nestedKey = some ["maybe"] ∧ isTruthValue "maybe" = false ∧
      ¬ f.decl.Boolean := by
  have hfound : (((Run.new { checkAnnotations := true }).serveAll
      [.build Sample.depot]).library.scope? "depot.thrift").any (fun s =>
        s.structures.all.any fun st => st.madeUp && st.allFields.any fun f =>
          f.decl.annotations.values? nestedKey == some ["maybe"] && !decide f.decl.Boolean) =
      true := by
    decide +kernel
  obtain ⟨s, hs, hfound⟩ := (Option.any_eq_true _ _).mp hfound
  simp only [List.any_eq_true, Bool.and_eq_true, beq_iff_eq, Bool.not_eq_true',
    decide_eq_false_iff_not] at hfound
  obtain ⟨st, hst, hmade, f, hf, hvalues, hboolean⟩ := hfound
  exact ⟨s, st, hst, f, hf, hs, hmade, hvalues, by decide, hboolean⟩

end IdlScope

import IdlScope.Proofs.Globals
import IdlScope.Proofs.Inlining

/-!
# Functions — the structures that are made up for functions

The structures of a function are made up under the name of its service and its own name, joined
by an underscore. Both names may hold underscores themselves, so two functions of two services
may have one joined name; the second of them is then given the names of the first one's
structures, and the file lists two structures of one name.

* **`Document.nodup_madeUp_iff`** — the source names of made-up structures differ exactly if the
  joined names of the functions do.
* **`made_up_apart_iff`** — so do their names, in every file; and where they differ, a function
  tells its structures by the names it has for them.
* **`made_up_together`** — different names of services and of functions are not enough.
-/

namespace IdlScope

/-! ## Joined names -/

/-- The name of the service and that of its function, which made-up structures are called by. -/
def FunctionDecl.joinedName (service : ServiceDecl) (f : FunctionDecl) : String :=
  service.name ++ "_" ++ f.name

/-- The functions of a document with their services. -/
def Document.functions (d : Document) : List (ServiceDecl × FunctionDecl) :=
  d.services.flatMap fun s => s.functions.map (s, ·)

/-- The joined names of the functions of a document. -/
def Document.joinedNames (d : Document) : List String :=
  d.functions.map fun p => p.2.joinedName p.1

theorem Naming.synthetic_injective : Function.Injective synthetic := by
  intro a b h
  have := congrArg String.toList h
  rw [synthetic, synthetic, String.toList_ofList, String.toList_ofList, List.cons.injEq] at this
  exact String.toList_inj.mp this.2

/-- What is made up for arguments is called otherwise than what is made up for results. -/
theorem args_ne_result (a b : String) : a ++ "_args" ≠ b ++ "_result" := by
  intro h
  have := congrArg (fun s => s.toList.getLast?) h
  simp at this

namespace FunctionDecl

variable {service service' : ServiceDecl} {f f' : FunctionDecl}

theorem name_of_mem_madeUp {st : StructDecl} (h : st ∈ f.madeUp service) :
    st.name = Naming.synthetic (f.joinedName service ++ "_args") ∨
      st.name = Naming.synthetic (f.joinedName service ++ "_result") := by
  rcases List.mem_cons.mp h with rfl | h
  · exact .inl rfl
  · split at h
    · exact absurd h List.not_mem_nil
    · rw [List.mem_singleton.mp h]
      exact .inr rfl

/-- Only functions of one joined name have structures of one source name. -/
theorem joinedName_eq {st st' : StructDecl} (h : st ∈ f.madeUp service)
    (h' : st' ∈ f'.madeUp service') (hname : st.name = st'.name) :
    f.joinedName service = f'.joinedName service' := by
  rcases name_of_mem_madeUp h with hst | hst <;> rcases name_of_mem_madeUp h' with hst' | hst' <;>
    rw [hst, hst'] at hname
  · exact (String.append_left_inj _).mp (Naming.synthetic_injective hname)
  · exact absurd (Naming.synthetic_injective hname) (args_ne_result _ _)
  · exact absurd (Naming.synthetic_injective hname).symm (args_ne_result _ _)
  · exact (String.append_left_inj _).mp (Naming.synthetic_injective hname)

theorem nodup_madeUp (service : ServiceDecl) (f : FunctionDecl) :
    ((f.madeUp service).map StructDecl.name).Nodup := by
  rw [madeUp]
  split
  · exact List.nodup_singleton _
  · refine List.nodup_cons.mpr ⟨fun h => ?_, List.nodup_singleton _⟩
    exact args_ne_result _ _ (Naming.synthetic_injective (List.mem_singleton.mp h))

end FunctionDecl

namespace Document

theorem madeUp_eq (d : Document) :
    d.madeUp = d.functions.flatMap fun p => p.2.madeUp p.1 := by
  rw [functions, List.flatMap_assoc]
  simp only [List.flatMap_map]
  rfl

/-- **Made-up structures have different source names exactly if the joined names of the functions
differ.** -/
theorem nodup_madeUp_iff (d : Document) :
    (d.madeUp.map StructDecl.name).Nodup ↔ d.joinedNames.Nodup := by
  rw [madeUp_eq, List.map_flatMap, List.nodup_flatMap, joinedNames, List.nodup_iff_pairwise_ne,
    List.pairwise_map]
  constructor
  · rintro ⟨-, hapart⟩
    refine hapart.imp fun {p p'} hdisjoint hjoined => ?_
    have hmem : (Site.argsStruct p.1 p.2).name ∈ (p.2.madeUp p.1).map StructDecl.name :=
      List.mem_map_of_mem List.mem_cons_self
    refine List.disjoint_left.mp hdisjoint hmem ?_
    have hname : (Site.argsStruct p.1 p.2).name = (Site.argsStruct p'.1 p'.2).name :=
      congrArg (fun joined => Naming.synthetic (joined ++ "_args")) hjoined
    rw [hname]
    exact List.mem_map_of_mem List.mem_cons_self
  · intro hjoined
    refine ⟨fun p _ => FunctionDecl.nodup_madeUp p.1 p.2, hjoined.imp fun {p p'} hne => ?_⟩
    refine List.disjoint_left.mpr fun name hname hname' => ?_
    obtain ⟨st, hst, rfl⟩ := List.mem_map.mp hname
    obtain ⟨st', hst', heq⟩ := List.mem_map.mp hname'
    exact hne (FunctionDecl.joinedName_eq hst hst' heq.symm)

end Document

/-! ## Made-up structures of a finished file -/

/-- Only one structure of the file has the name, and it is made from the declaration. -/
def Scope.OnlyNamed (s : Scope) (name : String) (decl : StructDecl) : Prop :=
  ∃ st ∈ s.structures.all, st.name = name ∧ st.decl = decl ∧
    ∀ other ∈ s.structures.all, other.name = name → other = st

namespace Scope.Built

variable {s : Scope} {o : Options} {t : Tree} {l : Library} {k : Linkage} (h : s.Built o t l k)
include h

/-- Structures of one name have one source name, and the other way round. -/
theorem name_eq_iff {st st' : Structure Field} (hst : st ∈ s.structures.all)
    (hst' : st' ∈ s.structures.all) : st.name = st'.name ↔ st.source = st'.source := by
  have hnames := h.holdsNames.structures
  constructor
  · intro hname
    refine h.holds_roles.1.key_unique (NameTable.mem_of_nameOf? (hnames st hst)) ?_
    rw [hname]
    exact NameTable.mem_of_nameOf? (hnames st' hst')
  · intro hsource
    have := hnames st hst
    rw [hsource, hnames st' hst'] at this
    exact (Option.some.inj this).symm

/-- Made-up structures have different names exactly if the joined names of functions differ. -/
theorem nodup_madeUp_iff :
    (s.structures.madeUp.map Structure.name).Nodup ↔ s.document.joinedNames.Nodup := by
  rw [← Document.nodup_madeUp_iff, ← h.holds_roles.2.2, List.map_map, List.nodup_iff_pairwise_ne,
    List.nodup_iff_pairwise_ne, List.pairwise_map, List.pairwise_map]
  refine List.Pairwise.iff_of_mem fun {st st'} hst hst' => not_congr ?_
  exact h.name_eq_iff (List.mem_append_right _ hst) (List.mem_append_right _ hst')

/-- Where joined names differ, a made-up structure is the only one of its name. -/
theorem onlyNamed_of_madeUp (hjoined : s.document.joinedNames.Nodup)
    (hmark : ∀ d ∈ s.document.structLikes, Naming.mark ∉ d.name.toList) {st : Structure Field}
    (hst : st ∈ s.structures.madeUp) : s.OnlyNamed st.name st.decl := by
  have hall := List.mem_append_right s.structures.declared hst
  refine ⟨st, hall, rfl, rfl, fun other hother hname => ?_⟩
  rcases StructureLists.mem_all_iff.mp hother with hdeclared | hmadeUp
  · -- a declared structure has no mark in its source name
    obtain ⟨r, resolved, hcomes⟩ := h.comes
    have hmem : other.map Field.toNamedField ∈ r.structures.declared := by
      rw [← hcomes.map_structures]
      simp only [StructureLists.declared, StructureLists.map, ← List.map_append]
      exact List.mem_map_of_mem hdeclared
    have hlays := (Site.sound_roster _ hcomes.named).structures _
      (StructureLists.mem_all_iff.mpr (.inl hmem))
    have hplain := hmark other.decl (hcomes.document ▸
      hlays.declared ((Site.accounts_roster hcomes.named).sorted _ hmem))
    refine absurd ?_ hplain
    rw [show other.decl.name = st.decl.name from (h.name_eq_iff hother hall).mp hname]
    exact Document.mark_mem_of_mem_madeUp (h.holds_roles.2.2 ▸ List.mem_map_of_mem hst)
  · exact List.inj_on_of_nodup_map (h.nodup_madeUp_iff.mpr hjoined) hmadeUp hst hname

/-- A name that is held for the source name of a made-up structure is the name of this structure. -/
theorem exists_madeUp {decl : StructDecl} (hdecl : decl ∈ s.document.madeUp) {name : String}
    (hname : (decl.name, name) ∈ s.globals.entries) :
    ∃ st ∈ s.structures.madeUp, st.name = name ∧ st.decl = decl := by
  obtain ⟨hdistinct, -, hmadeUp⟩ := h.holds_roles
  rw [← hmadeUp] at hdecl
  obtain ⟨st, hst, rfl⟩ := List.mem_map.mp hdecl
  have hheld := h.holdsNames.structures st (List.mem_append_right _ hst)
  exact ⟨st, hst, hdistinct.name_unique (NameTable.mem_of_nameOf? hheld) hname, rfl⟩

/-- A finished function has names for the structures that are made up for it. -/
theorem function_made {v : Service} (hv : v ∈ s.services) {f : Function} (hf : f ∈ v.functions) :
    f.toNamedFunction.Made v.decl s.globals.entries s.document.madeUp := by
  obtain ⟨r, resolved, hcomes, hglobals, -, -, hservices⟩ := h.rostered
  rw [hglobals, hcomes.document]
  exact ((Site.accounts_roster hcomes.named).services _ (hservices v hv)).2 _
    (h.function_named hv hf)

end Scope.Built

/-- **Functions have structures of their own exactly if their joined names differ.** In every file
that a run comes to, no two made-up structures have one name if and only if no two functions have
one joined name of service and function. If so, and if no declared structure has a mark in its
name, then the name that a function has for its arguments is the one of a single structure, which
is made from these arguments, and so is the name for its result, unless it is oneway. -/
theorem made_up_apart_iff (o : Options) (requests : List Request) {file : String} {s : Scope}
    (hs : ((Run.new o).serveAll requests).library.scope? file = some s) :
    ((s.structures.madeUp.map Structure.name).Nodup ↔ s.document.joinedNames.Nodup) ∧
    (s.document.joinedNames.Nodup →
      (∀ d ∈ s.document.structLikes, Naming.mark ∉ d.name.toList) →
      ∀ v ∈ s.services, ∀ f ∈ v.functions,
        s.OnlyNamed f.argsStruct (Site.argsStruct v.decl f.decl) ∧
        f.resultStruct.isSome = !f.decl.oneway ∧
        ∀ name ∈ f.resultStruct, s.OnlyNamed name (Site.resultStruct v.decl f.decl)) := by
  obtain ⟨t, m, k, -, -, hbuilt⟩ := (Run.sound_serveAll o requests).built file s hs
  refine ⟨hbuilt.nodup_madeUp_iff, fun hjoined hmark v hv f hf => ?_⟩
  have hmade := hbuilt.function_made hv hf
  have honly : ∀ decl ∈ f.decl.madeUp v.decl, ∀ name, (decl.name, name) ∈ s.globals.entries →
      s.OnlyNamed name decl := by
    intro decl hdecl name hname
    obtain ⟨st, hst, rfl, rfl⟩ := hbuilt.exists_madeUp (hmade.listed hdecl) hname
    exact hbuilt.onlyNamed_of_madeUp hjoined hmark hst
  refine ⟨honly _ List.mem_cons_self _ (hmade.entries List.mem_cons_self), hmade.result, ?_⟩
  intro name hname
  have honeway : f.decl.oneway = false := by
    have := hmade.result
    rw [Option.isSome_of_mem hname] at this
    simpa using this.symm
  refine honly _ ?_ name (hmade.entries ?_)
  · rw [FunctionDecl.madeUp, honeway]
    exact List.mem_cons_of_mem _ List.mem_cons_self
  · refine List.mem_cons_of_mem _ (Option.mem_toList.mpr ?_)
    rw [Option.mem_def.mp hname]
    rfl

namespace Sample

/-- Two services whose names differ, each with one function: the names of service and function
are joined to one name. -/
def clash : Tree where
  document := { Document.empty "clash.thrift" with
    services := [⟨"A_b", none, none, [⟨"c", true, true, .named "i32" .i32,
        [⟨1, "x", .default, .named "i32" .i32, none, []⟩], [], []⟩], []⟩,
      ⟨"A", none, none, [⟨"b_c", true, true, .named "i32" .i32,
        [⟨1, "y", .default, .named "string" .string, none, []⟩], [], []⟩], []⟩] }
  includes := []

end Sample

set_option maxRecDepth 100000 in
/-- The market has a single function, with structures of its own. -/
theorem made_up_apart_iff_market :
    ∃ s, ((Run.new {}).serveAll [.build Sample.market]).library.scope? "market.thrift" = some s ∧
      s.services.map (fun v => v.functions.map fun f => (f.argsStruct, f.resultStruct)) =
        [[("ShopBuyArgs", some "ShopBuyResult")]] ∧
      (s.structures.madeUp.map Structure.name).Nodup ∧
      ∀ v ∈ s.services, ∀ f ∈ v.functions,
        s.OnlyNamed f.argsStruct (Site.argsStruct v.decl f.decl) := by
  have hfound : (((Run.new {}).serveAll [.build Sample.market]).library.scope? "market.thrift").any
      (fun s => s.services.map (fun v => v.functions.map fun f => (f.argsStruct, f.resultStruct)) ==
          [[("ShopBuyArgs", some "ShopBuyResult")]] &&
        decide s.document.joinedNames.Nodup &&
        s.document.structLikes.all fun d => decide (Naming.mark ∉ d.name.toList)) = true := by
    decide +kernel
  obtain ⟨s, hs, hfound⟩ := (Option.any_eq_true _ _).mp hfound
  simp only [Bool.and_eq_true, beq_iff_eq, decide_eq_true_eq, List.all_eq_true] at hfound
  obtain ⟨⟨hnames, hjoined⟩, hmark⟩ := hfound
  obtain ⟨hiff, honly⟩ := made_up_apart_iff {} [.build Sample.market] hs
  exact ⟨s, hs, hnames, hiff.mpr hjoined, fun v hv f hf => (honly hjoined hmark v hv f hf).1⟩

set_option maxRecDepth 100000 in
/-- Services with different names and without marks, none of which has two functions of one name,
have two functions with different arguments and one name for the structures that hold them. -/
theorem made_up_together :
    ∃ s, ((Run.new {}).serveAll [.build Sample.clash]).library.scope? "clash.thrift" = some s ∧
      (s.document.roles.map Prod.fst).Nodup ∧
      (∀ e ∈ s.document.roles, Naming.mark ∉ e.1.toList) ∧
      (∀ v ∈ s.document.services, (v.functions.map FunctionDecl.name).Nodup) ∧
      s.services.map (fun v => v.functions.map (·.argsStruct)) = [["ABCArgs"], ["ABCArgs"]] ∧
      s.structures.madeUp.map (fun st => (st.name, st.decl.fields.map FieldDecl.name)) =
        [("ABCArgs", ["x"]), ("ABCArgs", ["y"])] ∧
      ¬ (s.structures.madeUp.map Structure.name).Nodup := by
  have hfound : (((Run.new {}).serveAll [.build Sample.clash]).library.scope? "clash.thrift").any
      (fun s => decide (s.document.roles.map Prod.fst).Nodup &&
        (s.document.roles.all fun e => decide (Naming.mark ∉ e.1.toList)) &&
        (s.document.services.all fun v => decide (v.functions.map FunctionDecl.name).Nodup) &&
        s.services.map (fun v => v.functions.map (·.argsStruct)) == [["ABCArgs"], ["ABCArgs"]] &&
        s.structures.madeUp.map (fun st => (st.name, st.decl.fields.map FieldDecl.name)) ==
          [("ABCArgs", ["x"]), ("ABCArgs", ["y"])] &&
        !decide (s.structures.madeUp.map Structure.name).Nodup) = true := by
    decide +kernel
  obtain ⟨s, hs, hfound⟩ := (Option.any_eq_true _ _).mp hfound
  simp only [Bool.and_eq_true, beq_iff_eq, decide_eq_true_eq, List.all_eq_true,
    Bool.not_eq_true', decide_eq_false_iff_not] at hfound
  obtain ⟨⟨⟨⟨⟨hsources, hmark⟩, hfunctions⟩, hnames⟩, hmadeUp⟩, hrepeated⟩ := hfound
  exact ⟨s, hs, hsources, hmark, hfunctions, hnames, hmadeUp, hrepeated⟩

end IdlScope

import IdlScope.Proofs.Declarations
import IdlScope.Proofs.Functions
import IdlScope.Proofs.Identifiers

/-!
# Parameters — what arguments and exceptions of functions are called

A function has one table for the names that it declares itself, its arguments and its exceptions.
A candidate that is a keyword gets an underscore in front, and one that is taken gets underscores
behind. Neither leads back to a keyword, since no keyword has an underscore in it.

* **`NameTable.Plain`** — a table without keywords stays without them, since what has an underscore
  is none (`Naming.isKeyword_of_underscore`).
* **`Site.takesParams_nameParams`** — the step that names parameters, and
  **`Site.takesParams_roster`**, all functions of a finished roster.
* **`parameter_names_safe`** — in every file of a run, the names of a function's parameters differ
  from each other and from its own ones, if those of the source do, and none is a keyword.
-/

namespace IdlScope

/-! ## Tables without keywords -/

/-- No name of the table is a keyword. -/
def NameTable.Plain (t : NameTable) : Prop :=
  ∀ name ∈ t.names, Naming.isKeyword name = false

theorem NameTable.Plain.add {t : NameTable} (ht : t.Plain) {candidate : String}
    (h : Naming.isKeyword candidate = false) (key : String) : (t.add candidate key).2.Plain :=
  (add_of (P := fun name => Naming.isKeyword name = false)
    (fun name _ => Naming.isKeyword_push name) ht h key).2

/-! ## Allocating parameters -/

namespace NamedFunction

/-- The entries of a function: the names that it declares itself, its arguments and its
exceptions. -/
def paramEntries (fn : NamedFunction) : List (String × String) :=
  (Site.fixedParams fn.decl).entries ++ fn.argumentNames.map (fun p => (p.source, p.name)) ++
    fn.throwNames.map fun p => (Site.throwKey p.source, p.name)

/-- The arguments and the exceptions of a function have names in its table, next to the ones that
it declares itself, and no name of the table is a keyword. -/
structure TakesParams (fn : NamedFunction) : Prop where
  distinct : fn.params.Distinct
  plain : fn.params.Plain
  entries : fn.paramEntries ⊆ fn.params.entries
  arguments : fn.argumentNames.map NamedParam.source = fn.decl.arguments.map FieldDecl.name
  throws : fn.throwNames.map NamedParam.source = fn.decl.throws.map FieldDecl.name

end NamedFunction

namespace Site

theorem distinct_fixedParams (f : FunctionDecl) : (fixedParams f).Distinct := by
  rw [fixedParams]
  cases f.void with
  | true => exact ⟨by decide, by decide⟩
  | false => exact ⟨by decide, by decide⟩

theorem plain_fixedParams (f : FunctionDecl) : (fixedParams f).Plain := by
  rw [fixedParams]
  cases f.void with
  | true => exact (by decide : ∀ name ∈ ["p", "ctx", "err"], Naming.isKeyword name = false)
  | false =>
      exact (by decide : ∀ name ∈ ["p", "ctx", "err", "r", "_result"],
        Naming.isKeyword name = false)

section Allocating

variable (key : String → String) {candidates : List (String × String)}

/-- Every parameter has its name in the table, under the key of its source. -/
theorem allocates_allocateParams (candidates : List (String × String)) :
    Allocates (allocateParams key candidates) fun es ps =>
      ∀ p ∈ ps, (key p.source, p.name) ∈ es := by
  have hall := Allocates.mapM candidates
    (f := fun c => do return ⟨← allocate c.2 (key c.1), c.1⟩)
    (R := fun es c (p : NamedParam) => (key p.source, p.name) ∈ es)
    fun c _ => .bind (.allocate c.2 (key c.1)) fun name => .pure fun es hname => hname
  refine hall.weaken fun es ps hps p hp => ?_
  obtain ⟨c, -, hentry⟩ := exists_of_mem_forall₂ hps hp
  exact hentry

/-- No keyword is allocated where none is asked for. -/
theorem plain_allocateParams (h : ∀ c ∈ candidates, Naming.isKeyword c.2 = false) {t : NameTable}
    (ht : t.Plain) : ((allocateParams key candidates).run t).2.Plain := by
  induction candidates generalizing t with
  | nil => exact ht
  | cons c candidates ih =>
      obtain ⟨hc, hrest⟩ := List.forall_mem_cons.mp h
      rw [allocateParams, List.mapM_cons]
      exact ih hrest (ht.add hc (key c.1))

end Allocating

variable (w : Site)

theorem isKeyword_of_paramCandidates {fields : List FieldDecl}
    {candidates : List (String × String)} (h : w.paramCandidates fields = .ok candidates) :
    ∀ c ∈ candidates, Naming.isKeyword c.2 = false := by
  intro c hc
  obtain ⟨f, -, hcandidate⟩ := exists_of_mem_forall₂ (mapM_eq_ok.mp h) hc
  obtain ⟨stem, -, hcandidate⟩ := bind_eq_ok.mp hcandidate
  rw [← pure_eq_ok.mp hcandidate]
  exact Naming.isKeyword_parameterName stem

/-- The last steps of naming a function give it its parameters. -/
theorem takesParams_nameParams {P : Roster → Prop} (f : FunctionDecl) (name args : String)
    (result : Option String) :
    Ensures P (w.nameParams f name args result) fun fn r => fn.TakesParams ∧ P r := by
  rw [nameParams]
  refine .bind (Q := fun candidates r => w.paramCandidates f.arguments = .ok candidates ∧ P r)
    (.lift fun _ _ hc hr => ⟨hc, hr⟩) fun arguments => .given fun harguments => ?_
  refine .bind (Q := fun candidates r => w.paramCandidates f.throws = .ok candidates ∧ P r)
    (.lift fun _ _ hc hr => ⟨hc, hr⟩) fun throws => .given fun hthrows => .pure fun r hr => ?_
  refine ⟨?_, hr⟩
  have hfirst := allocates_allocateParams id arguments
  have hsecond := allocates_allocateParams throwKey throws
  have hplain := plain_allocateParams id (w.isKeyword_of_paramCandidates harguments)
    (plain_fixedParams f)
  -- the table is the one of the arguments, and the one of the exceptions has grown from it
  let first := (allocateParams id arguments).run (fixedParams f)
  let second := (allocateParams throwKey throws).run first.2
  have hkept : first.2.entries ⊆ second.2.entries := hsecond.kept first.2
  have hentries : NamedFunction.paramEntries ⟨f, name, second.2, args, result, first.1, second.1⟩ ⊆
      second.2.entries := by
    refine List.append_subset.mpr ⟨List.append_subset.mpr ⟨?_, ?_⟩, ?_⟩
    · exact List.Subset.trans (hfirst.kept (fixedParams f)) hkept
    · intro e he
      obtain ⟨p, hp, rfl⟩ := List.mem_map.mp he
      exact hfirst.gives _ _ hkept p hp
    · intro e he
      obtain ⟨p, hp, rfl⟩ := List.mem_map.mp he
      exact hsecond.gives _ _ (List.Subset.refl _) p hp
  exact {
    distinct := hsecond.distinct _ (hfirst.distinct _ (distinct_fixedParams f))
    plain := plain_allocateParams throwKey (w.isKeyword_of_paramCandidates hthrows) hplain
    entries := hentries
    arguments := (source_allocateParams id arguments _).trans (w.paramCandidates_eq_ok harguments)
    throws := (source_allocateParams throwKey throws _).trans (w.paramCandidates_eq_ok hthrows) }

end Site

/-! ## Functions of a roster -/

/-- All functions of the roster have the property. -/
def Roster.EachFunction (P : NamedFunction → Prop) (r : Roster) : Prop :=
  ∀ v ∈ r.services, ∀ fn ∈ v.namedFunctions, P fn

namespace Site

variable (w : Site) (P : NamedFunction → Prop)

/-- If all functions of a roster have the property, they do after the step. -/
abbrev KeepsEach {α : Type} (x : Install α) : Prop :=
  Ensures (Roster.EachFunction P) x fun _ => Roster.EachFunction P

variable {P}

theorem Silent.keepsEach {α : Type} {x : Install α} {Q : α → Prop} (h : Silent x Q) :
    KeepsEach P x := by
  refine (h.keeps fun r r' hr hshown => ?_).weaken fun _ _ h => h.2
  have hservices : r'.services = r.services := congrArg (fun shown => shown.2.2) hshown
  rw [Roster.EachFunction, hservices]
  exact hr

theorem keepsEach_declare (source name : String) (kind : DeclKind) :
    KeepsEach P (declare source name kind) :=
  .modify fun _ h => h

theorem keepsEach_listStructure (s : StructDecl) (name : String) (kind : StructKind)
    (purpose : Purpose) : KeepsEach P (w.listStructure s name kind purpose) := by
  rw [listStructure]
  refine .bind (silent_report _).keepsEach fun _ => ?_
  refine .bind (silent_nameFields w s name kind purpose).keepsEach fun st => ?_
  exact .bind (Q := fun _ => Roster.EachFunction P) (.modify fun _ h => h) fun _ =>
    .pure fun _ h => h

theorem keepsEach_addStructure (s : StructDecl) (purpose : Purpose) :
    KeepsEach P (w.addStructure s purpose) := by
  rw [addStructure_eq_bind]
  refine .bind (silent_allocateGlobal w _ _).keepsEach fun name => ?_
  refine .bind (silent_reserveGlobal w _ _).keepsEach fun _ => ?_
  refine .bind (silent_reserveGlobal w _ _).keepsEach fun _ => ?_
  split
  · exact .bind (silent_report _).keepsEach fun _ => .pure fun _ h => h
  · next kind _ =>
    split
    · exact .bind (keepsEach_declare _ _ _) fun _ => keepsEach_listStructure w s name kind purpose
    · exact keepsEach_listStructure w s name kind purpose

theorem keepsEach_addEnum (e : EnumDecl) : KeepsEach P (w.addEnum e) := by
  rw [addEnum]
  refine .bind (silent_allocateGlobal w _ _).keepsEach fun name => ?_
  exact .bind (keepsEach_declare _ _ _) fun _ => .modify fun _ h => h

theorem keepsEach_addTypedef (t : TypedefDecl) : KeepsEach P (w.addTypedef t) := by
  rw [addTypedef]
  refine .bind (silent_allocateGlobal w _ _).keepsEach fun name => ?_
  have hrest : KeepsEach P (do
      declare t.name name .typedef
      modify fun r => { r with typedefs := r.typedefs ++ [⟨t, name⟩] }) :=
    .bind (keepsEach_declare _ _ _) fun _ => .modify fun _ h => h
  split
  · exact .bind (silent_reserveGlobal w _ _).keepsEach fun _ => hrest
  · exact hrest

theorem keepsEach_addConstant (c : ConstantDecl) : KeepsEach P (w.addConstant c) := by
  rw [addConstant]
  refine .bind (silent_allocateGlobal w _ _).keepsEach fun name => ?_
  exact .bind (keepsEach_declare _ _ _) fun _ => .modify fun _ h => h

section Functions

variable (hnamed : ∀ f name args result, Ensures (Roster.EachFunction P)
  (w.nameParams f name args result) fun fn r => P fn ∧ r.EachFunction P)
include hnamed

theorem each_addFunction (service : ServiceDecl) (f : FunctionDecl) (name : String) :
    Ensures (Roster.EachFunction P) (w.addFunction service f name) fun fn r =>
      P fn ∧ r.EachFunction P := by
  rw [addFunction_eq_bind]
  refine .bind (keepsEach_addStructure w _ _) fun args => ?_
  split
  · exact .bind (Q := fun _ => Roster.EachFunction P) (.pure fun _ h => h) (hnamed f name args)
  · exact .bind (Q := fun _ => Roster.EachFunction P) (.map (keepsEach_addStructure w _ _))
      (hnamed f name args)

theorem each_addFunctions (service : ServiceDecl) (names : NameTable) (fs : List FunctionDecl) :
    Ensures (Roster.EachFunction P) (w.addFunctions service names fs) fun fns r =>
      (∀ fn ∈ fns, P fn) ∧ r.EachFunction P := by
  induction fs generalizing names with
  | nil => exact .pure fun _ h => ⟨fun _ hfn => absurd hfn List.not_mem_nil, h⟩
  | cons f fs ih =>
      rw [addFunctions]
      refine .bind (Q := fun _ => Roster.EachFunction P) (.lift fun _ _ _ h => h)
        fun candidate => ?_
      refine .bind (each_addFunction w hnamed service f _) fun first => .given fun hfirst => ?_
      refine .bind (ih _) fun rest => .pure fun r h => ?_
      exact ⟨List.forall_mem_cons.mpr ⟨hfirst, h.1⟩, h.2⟩

theorem keepsEach_addService (s : ServiceDecl) : KeepsEach P (w.addService s) := by
  rw [addService]
  refine .bind (silent_allocateGlobal w _ _).keepsEach fun name => ?_
  refine .bind (keepsEach_declare _ _ _) fun _ => ?_
  refine .bind (each_addFunctions w hnamed s _ _) fun functions => .given fun hfunctions => ?_
  refine .bind (silent_reserveGlobal w _ _).keepsEach fun _ => ?_
  refine .bind (silent_reserveGlobal w _ _).keepsEach fun _ => .modify fun r h => ?_
  exact List.forall_mem_append.mpr ⟨h, List.forall_mem_singleton.mpr hfunctions⟩

theorem keepsEach_install : KeepsEach P w.install := by
  rw [install]
  refine .bind (.forM _ fun s _ => keepsEach_addService w hnamed s) fun _ => ?_
  refine .bind (.forM _ fun s _ => .bind (keepsEach_addStructure w s .declared) fun _ =>
    .pure fun _ h => h) fun _ => ?_
  refine .bind (.forM _ fun e _ => keepsEach_addEnum w e) fun _ => ?_
  refine .bind (.forM _ fun t _ => keepsEach_addTypedef w t) fun _ => ?_
  exact .forM _ fun c _ => keepsEach_addConstant w c

/-- What the last steps of naming a function ensure holds of all functions of a finished roster. -/
theorem each_roster {r : Roster} (h : w.roster = .ok r) : r.EachFunction P := by
  obtain ⟨⟨u, r'⟩, hrun, h⟩ := bind_eq_ok.mp h
  rw [← pure_eq_ok.mp h]
  exact keepsEach_install w hnamed .empty u r' (fun _ hv => absurd hv List.not_mem_nil) hrun

end Functions

/-- **All functions of a finished roster have their parameters.** -/
theorem takesParams_roster {r : Roster} (h : w.roster = .ok r) :
    r.EachFunction NamedFunction.TakesParams :=
  each_roster w (fun f name args result => takesParams_nameParams w f name args result) h

end Site

/-! ## Keys -/

theorem Site.throwKey_injective : Function.Injective throwKey := by
  intro a b h
  exact (String.append_right_inj _).mp (Naming.synthetic_injective h)

/-- The key of an exception has the mark in front and goes on as no key of a function's own name. -/
theorem Site.throwKey_spec (source : String) :
    Naming.isSynthetic (throwKey source) = true ∧ (throwKey source).toList[1]? = some 't' := by
  rw [Naming.isSynthetic, throwKey, Naming.synthetic, String.toList_ofList, String.toList_append]
  exact ⟨rfl, rfl⟩

theorem Site.fixedParams_spec (f : FunctionDecl) :
    ∀ key ∈ (fixedParams f).entries.map Prod.fst,
      Naming.isSynthetic key = true ∧ key.toList[1]? ≠ some 't' := by
  rw [fixedParams]
  cases f.void <;> decide

namespace NamedFunction.TakesParams

variable {fn : NamedFunction} (h : fn.TakesParams)
include h

theorem map_fst_paramEntries : fn.paramEntries.map Prod.fst =
    (Site.fixedParams fn.decl).entries.map Prod.fst ++ fn.decl.arguments.map FieldDecl.name ++
      (fn.decl.throws.map FieldDecl.name).map Site.throwKey := by
  rw [paramEntries, List.map_append, List.map_append, ← h.arguments, ← h.throws]
  simp only [List.map_map, Function.comp_def]

/-- The keys differ if the names of arguments do and those of exceptions: no argument has the mark
in front of its name. -/
theorem nodup_keys (harguments : (fn.decl.arguments.map FieldDecl.name).Nodup)
    (hthrows : (fn.decl.throws.map FieldDecl.name).Nodup)
    (hmark : ∀ a ∈ fn.decl.arguments, Naming.isSynthetic a.name = false) :
    (fn.paramEntries.map Prod.fst).Nodup := by
  have hfixed := Site.fixedParams_spec fn.decl
  have hplain : ∀ key ∈ fn.decl.arguments.map FieldDecl.name, Naming.isSynthetic key ≠ true := by
    intro key hkey
    obtain ⟨a, ha, rfl⟩ := List.mem_map.mp hkey
    rw [hmark a ha]
    exact Bool.false_ne_true
  rw [h.map_fst_paramEntries, List.nodup_append, List.nodup_append]
  refine ⟨⟨(Site.distinct_fixedParams fn.decl).keys, harguments, ?_⟩,
    hthrows.map Site.throwKey_injective, ?_⟩
  · rintro key hkey _ hname rfl
    exact hplain key hname (hfixed key hkey).1
  · rintro key hkey _ hname rfl
    obtain ⟨source, -, rfl⟩ := List.mem_map.mp hname
    obtain ⟨hsynthetic, hbehind⟩ := Site.throwKey_spec source
    rcases List.mem_append.mp hkey with hkey | hkey
    · exact (hfixed _ hkey).2 hbehind
    · exact hplain _ hkey hsynthetic

/-- So all names that a function declares differ. -/
theorem nodup_names (harguments : (fn.decl.arguments.map FieldDecl.name).Nodup)
    (hthrows : (fn.decl.throws.map FieldDecl.name).Nodup)
    (hmark : ∀ a ∈ fn.decl.arguments, Naming.isSynthetic a.name = false) :
    ((Site.fixedParams fn.decl).names ++ fn.argumentNames.map NamedParam.name ++
      fn.throwNames.map NamedParam.name).Nodup := by
  have hnames := h.distinct.nodup_names h.entries (h.nodup_keys harguments hthrows hmark)
  rw [paramEntries, List.map_append, List.map_append, List.map_map, List.map_map] at hnames
  exact hnames

theorem isKeyword_eq_false : ∀ p ∈ fn.argumentNames ++ fn.throwNames,
    Naming.isKeyword p.name = false := by
  intro p hp
  have hentry : ∃ key, (key, p.name) ∈ fn.params.entries := by
    rcases List.mem_append.mp hp with hp | hp
    · exact ⟨p.source, h.entries (List.mem_append_left _ (List.mem_append_right _
        (List.mem_map_of_mem (f := fun p : NamedParam => (p.source, p.name)) hp)))⟩
    · exact ⟨Site.throwKey p.source, h.entries (List.mem_append_right _
        (List.mem_map_of_mem (f := fun p : NamedParam => (Site.throwKey p.source, p.name)) hp))⟩
  obtain ⟨key, hkey⟩ := hentry
  exact h.plain p.name (List.mem_map_of_mem (f := Prod.snd) hkey)

end NamedFunction.TakesParams

/-! ## Finished functions -/

/-- Written parameters are named as before. -/
theorem RenderEnv.map_writtenParams (e : RenderEnv) (q : Home → Option String)
    {names : List NamedParam} {types : List TypeExpr} (h : names.length = types.length) :
    (e.writtenParams q names types).map Param.toNamedParam = names := by
  rw [writtenParams, List.map_map]
  exact List.map_fst_zip h.le

namespace Scope.Built

variable {s : Scope} {o : Options} {t : Tree} {l : Library} {k : Linkage} (h : s.Built o t l k)
  {v : Service} (hv : v ∈ s.services) {f : Function} (hf : f ∈ v.functions)
include h hv hf

theorem takesParams : f.toNamedFunction.TakesParams := by
  obtain ⟨r, resolved, hcomes, -, -, -, hservices⟩ := h.rostered
  exact Site.takesParams_roster _ hcomes.named _ (hservices v hv) _ (h.function_named hv hf)

/-- A finished function has the parameters that were named. -/
theorem map_params : f.arguments.map Param.toNamedParam = f.argumentNames ∧
    f.throws.map Param.toNamedParam = f.throwNames := by
  have htakes := h.takesParams hv hf
  obtain ⟨r, resolved, structures, k₁, k₂, -, -, -, -, g, -, hrun⟩ := h.function_step hv hf
  obtain ⟨arguments, response, throws, harguments, -, hthrows, -, htext⟩ :=
    RenderEnv.function_eq_ok hrun
  obtain rfl := htext k₂ le_rfl
  have hlength : ∀ {names : List NamedParam} {fields : List FieldDecl} {types : List TypeExpr},
      names.map NamedParam.source = fields.map FieldDecl.name → fields.length = types.length →
        names.length = types.length := by
    intro names fields types hnames hfields
    have := congrArg List.length hnames
    rw [List.length_map, List.length_map] at this
    exact this.trans hfields
  exact ⟨RenderEnv.map_writtenParams _ _
      (hlength htakes.arguments (mapM_eq_ok.mp harguments).length_eq),
    RenderEnv.map_writtenParams _ _ (hlength htakes.throws (mapM_eq_ok.mp hthrows).length_eq)⟩

end Scope.Built

/-- **Parameter names are safe.** In every file of a run, let the arguments of a function have
different names in the source, let its exceptions, and let no argument have a name with the mark in
front. Then its arguments and its exceptions are named for these, in order; all of their names
differ from each other and from the names that the function declares itself; and none of them is
a keyword. -/
theorem parameter_names_safe (o : Options) (requests : List Request) {file : String} {s : Scope}
    (hs : ((Run.new o).serveAll requests).library.scope? file = some s) {v : Service}
    (hv : v ∈ s.services) {f : Function} (hf : f ∈ v.functions)
    (harguments : (f.decl.arguments.map FieldDecl.name).Nodup)
    (hthrows : (f.decl.throws.map FieldDecl.name).Nodup)
    (hmark : ∀ a ∈ f.decl.arguments, Naming.isSynthetic a.name = false) :
    f.arguments.map (·.source) = f.decl.arguments.map FieldDecl.name ∧
      f.throws.map (·.source) = f.decl.throws.map FieldDecl.name ∧
      (["p", "ctx", "err"] ++ (if f.decl.void then [] else ["r", "_result"]) ++
        f.arguments.map (·.name) ++ f.throws.map (·.name)).Nodup ∧
      ∀ p ∈ f.arguments ++ f.throws, Naming.isKeyword p.name = false := by
  obtain ⟨t, l, k, -, -, hbuilt⟩ := (Run.sound_serveAll o requests).built file s hs
  have htakes := hbuilt.takesParams hv hf
  obtain ⟨hnamed, hthrown⟩ := hbuilt.map_params hv hf
  have hfixed : (Site.fixedParams f.decl).names =
      ["p", "ctx", "err"] ++ if f.decl.void then [] else ["r", "_result"] := by
    rw [Site.fixedParams]
    cases f.decl.void <;> rfl
  have hnames := htakes.nodup_names harguments hthrows hmark
  have hplain := htakes.isKeyword_eq_false
  have hsources := htakes.arguments
  have hsources' := htakes.throws
  rw [← hnamed, ← hthrown] at hnames hplain
  rw [← hnamed, List.map_map] at hsources
  rw [← hthrown, List.map_map] at hsources'
  rw [hfixed, List.map_map, List.map_map] at hnames
  refine ⟨hsources, hsources', hnames, ?_⟩
  intro p hp
  refine hplain p.toNamedParam ?_
  rw [← List.map_append]
  exact List.mem_map_of_mem hp

namespace Sample

/-- A shop whose lookup has a keyword for a parameter, and others that it uses itself. -/
def counter : Tree where
  document := { Document.empty "counter.thrift" with
    exceptions := [⟨"exception", "Failure", [], [], none⟩]
    services := [⟨"Counter", none, none, [⟨"look_up", false, false, .named "i32" .i32,
      [⟨1, "type", .default, .named "i32" .i32, none, []⟩,
        ⟨2, "r", .default, .named "i32" .i32, none, []⟩,
        ⟨3, "R", .default, .named "i32" .i32, none, []⟩],
      [⟨1, "err", .default, .named "Failure" .exception, none, []⟩,
        ⟨2, "type", .default, .named "Failure" .exception, none, []⟩], []⟩], []⟩] }
  includes := []

end Sample

set_option maxRecDepth 100000 in
/-- The names of the lookup's parameters: all of them had to give way. -/
theorem parameter_names_safe_counter :
    ∃ s, ((Run.new {}).serveAll [.build Sample.counter]).library.scope? "counter.thrift" =
        some s ∧
      ∃ v ∈ s.services, ∃ f ∈ v.functions, f.decl.void = false ∧
        f.arguments.map (·.name) = ["_type", "r_", "r__"] ∧
        f.throws.map (·.name) = ["err_", "_type_"] ∧
        (["p", "ctx", "err"] ++ (if f.decl.void then [] else ["r", "_result"]) ++
          f.arguments.map (·.name) ++ f.throws.map (·.name)).Nodup ∧
        ∀ p ∈ f.arguments ++ f.throws, Naming.isKeyword p.name = false := by
  have hfound : (((Run.new {}).serveAll [.build Sample.counter]).library.scope?
      "counter.thrift").any (fun s => s.services.any fun v => v.functions.any fun f =>
        !f.decl.void && f.arguments.map (·.name) == ["_type", "r_", "r__"] &&
          f.throws.map (·.name) == ["err_", "_type_"] &&
          decide (f.decl.arguments.map FieldDecl.name).Nodup &&
          decide (f.decl.throws.map FieldDecl.name).Nodup &&
          f.decl.arguments.all fun a => !Naming.isSynthetic a.name) = true := by
    decide +kernel
  obtain ⟨s, hs, hfound⟩ := (Option.any_eq_true _ _).mp hfound
  simp only [List.any_eq_true, Bool.and_eq_true, Bool.not_eq_true', beq_iff_eq,
    decide_eq_true_eq, List.all_eq_true] at hfound
  obtain ⟨v, hv, f, hf, ⟨⟨⟨⟨hvoid, hnames⟩, hnames'⟩, harguments⟩, hthrows⟩, hmark⟩ := hfound
  obtain ⟨-, -, hnodup, hplain⟩ :=
    parameter_names_safe {} [.build Sample.counter] hs hv hf harguments hthrows hmark
  exact ⟨s, hs, v, hv, f, hf, hvoid, hnames, hnames', hnodup, hplain⟩

end IdlScope

import IdlScope.Proofs.Allocations
import IdlScope.Proofs.Identifiers

/-!
# Enum values — names put together behind an enum

The values of an enum have a name table of their own, and a value asks there for the name of its
enum with its source name behind it. Since a table gives different names to different keys, and
nothing else is asked for, no value ever has to give way.

* **`NameTable.Behind.add`** — a table in which every name is its key behind one stem gives each key
  just that.
* **`Site.allocateValues_eq`** — so the values of an enum are named one by one, without regard to
  each other.
* **`Site.enums_roster`** — a finished roster has the enums of its document in order, with these
  values.
* **`value_names_spelled_iff`** — in every file of a run, the name of a value is an identifier
  exactly if its source name has identifier characters only. Different sources have different names.

Unlike all other names, what a value asks for is never checked, so a file with a value `V1.1` has a
scope (`value_name_unspelled`).
-/

namespace IdlScope

/-! ## Names behind a stem -/

/-- The name of the value of an enum. -/
def valueName (enumName source : String) : String :=
  enumName ++ "_" ++ source

theorem valueName_inj {enumName source source' : String}
    (h : valueName enumName source = valueName enumName source') : source = source' :=
  (String.append_right_inj _).mp h

/-- Behind an identifier, it is the source name that decides. -/
theorem isIdentifier_valueName_iff {enumName source : String}
    (h : Naming.isIdentifier enumName = true) :
    Naming.isIdentifier (valueName enumName source) = true ↔
      ∀ c ∈ source.toList, Unicode.isXidContinue c = true := by
  constructor
  · intro hname c hc
    refine Naming.isXidContinue_of_mem hname ?_
    rw [valueName, String.toList_append]
    exact List.mem_append_right _ hc
  · intro hsource
    rw [← Naming.Classes.isIdentifier_xid] at h ⊢
    exact Naming.Classes.isIdentifier_append
      (Naming.Classes.isIdentifier_append_plain h (by decide)) hsource

/-- Every name of the table is its key behind the stem. -/
def NameTable.Behind (t : NameTable) (enumName : String) : Prop :=
  ∀ entry ∈ t.entries, entry.2 = valueName enumName entry.1

namespace NameTable

theorem behind_empty (enumName : String) : empty.Behind enumName :=
  fun _ hentry => absurd hentry List.not_mem_nil

/-- No other key can have taken what a key asks for. -/
theorem Behind.add {t : NameTable} {enumName : String} (h : t.Behind enumName) (source : String) :
    (t.add (valueName enumName source) source).1 = valueName enumName source ∧
      (t.add (valueName enumName source) source).2.Behind enumName := by
  cases hkey : t.nameOf? source with
  | some name =>
      rw [add_of_nameOf? hkey]
      exact ⟨h _ (mem_of_nameOf? hkey), h⟩
  | none =>
      rw [add_of_nameOf?_eq_none hkey]
      obtain ⟨n, hfresh, -, hleast⟩ := t.exists_fresh (valueName enumName source)
      rw [hfresh]
      cases n with
      | zero =>
          refine ⟨rfl, List.forall_mem_append.mpr ⟨h, ?_⟩⟩
          exact List.forall_mem_singleton.mpr rfl
      | succ n =>
          obtain ⟨⟨key, name⟩, hentry, hname⟩ := List.mem_map.mp (hleast 0 (Nat.succ_pos n))
          have hsame : valueName enumName key = valueName enumName source :=
            (h _ hentry).symm.trans hname
          obtain rfl : key = source := valueName_inj hsame
          have hnone := List.lookup_eq_none_iff.mp hkey _ hentry
          simp at hnone

end NameTable

/-! ## Values of an enum -/

/-- The value with its name. -/
def EnumValueDecl.named (o : Options) (enumName : String) (v : EnumValueDecl) : EnumValue where
  decl := v
  name := valueName enumName v.name
  literal := if o.typedEnumText then valueName enumName v.name else v.name

/-- The values of the enum are those of its declaration in order, each with its name. -/
def Enum.NamesValues (o : Options) (e : Enum) : Prop :=
  e.values = e.decl.values.map (EnumValueDecl.named o e.name)

namespace Site

/-- Values are named without regard to each other. -/
theorem allocateValues_eq (o : Options) {enumName : String} (values : List EnumValueDecl)
    {t : NameTable} (ht : t.Behind enumName) :
    ((allocateValues o enumName values).run t).1 =
      values.map (EnumValueDecl.named o enumName) := by
  induction values generalizing t with
  | nil => rfl
  | cons v values ih =>
      obtain ⟨hname, hbehind⟩ := ht.add v.name
      rw [valueName] at hname hbehind
      rw [run_allocateValues_cons, ih hbehind, hname]
      rfl

variable (w : Site)

/-! ## Enums of a roster -/

/-- A step that leaves the enums of the roster alone. -/
abbrev LeavesEnums {α : Type} (x : Install α) : Prop :=
  ∀ es, Ensures (fun r : Roster => r.enums = es) x fun _ r => r.enums = es

theorem leavesEnums_report (ds : List Diagnostic) : LeavesEnums (report ds) :=
  fun _ => .modify fun _ h => h

theorem leavesEnums_declare (source name : String) (kind : DeclKind) :
    LeavesEnums (declare source name kind) :=
  fun _ => .modify fun _ h => h

theorem leavesEnums_allocateGlobal (source : String) (madeUp : Bool) :
    LeavesEnums (w.allocateGlobal source madeUp) := by
  intro es
  rw [allocateGlobal]
  refine .bind (Q := fun _ r => r.enums = es) (.lift fun _ _ _ h => h) fun candidate => ?_
  refine .bind_get fun r hr => ?_
  exact .bind (Q := fun _ r => r.enums = es) (.set fun _ => hr) fun _ => .pure fun _ h => h

theorem leavesEnums_reserveGlobal (name key : String) :
    LeavesEnums (w.reserveGlobal name key) := by
  intro es
  rw [reserveGlobal]
  refine .bind_get fun r hr => ?_
  split
  · exact .set fun _ => hr
  · exact .throw

theorem leavesEnums_nameFields (s : StructDecl) (name : String) (kind : StructKind)
    (purpose : Purpose) : LeavesEnums (w.nameFields s name kind purpose) := by
  intro es
  rw [nameFields]
  refine .bind (Q := fun _ r => r.enums = es) (.lift fun _ _ _ h => h) fun plans => ?_
  dsimp only
  cases takenId? plans with
  | some taken => exact .bind (Q := fun _ _ => False) .throw fun _ _ _ _ h _ => h.elim
  | none => exact .bind (leavesEnums_report _ es) fun _ => .pure fun _ h => h

theorem leavesEnums_listStructure (s : StructDecl) (name : String) (kind : StructKind)
    (purpose : Purpose) : LeavesEnums (w.listStructure s name kind purpose) := by
  intro es
  rw [listStructure]
  refine .bind (leavesEnums_report _ es) fun _ => ?_
  refine .bind (leavesEnums_nameFields w s name kind purpose es) fun st => ?_
  exact .bind (Q := fun _ r => r.enums = es) (.modify fun _ h => h) fun _ => .pure fun _ h => h

theorem leavesEnums_addStructure (s : StructDecl) (purpose : Purpose) :
    LeavesEnums (w.addStructure s purpose) := by
  intro es
  rw [addStructure_eq_bind]
  refine .bind (leavesEnums_allocateGlobal w _ _ es) fun name => ?_
  refine .bind (leavesEnums_reserveGlobal w _ _ es) fun _ => ?_
  refine .bind (leavesEnums_reserveGlobal w _ _ es) fun _ => ?_
  split
  · exact .bind (leavesEnums_report _ es) fun _ => .pure fun _ h => h
  · next kind _ =>
    have hlists := leavesEnums_listStructure w s name kind purpose es
    split
    · exact .bind (leavesEnums_declare _ _ _ es) fun _ => hlists
    · exact hlists

theorem leavesEnums_addFunction (service : ServiceDecl) (f : FunctionDecl) (name : String) :
    LeavesEnums (w.addFunction service f name) := by
  intro es
  have hparams : ∀ args result, Ensures (fun r : Roster => r.enums = es)
      (w.nameParams f name args result) fun _ r => r.enums = es :=
    fun args result => (ensures_nameParams w f name args result).weaken fun _ _ h => h.2
  rw [addFunction_eq_bind]
  refine .bind (leavesEnums_addStructure w _ _ es) fun args => ?_
  split
  · exact .bind (Q := fun _ r => r.enums = es) (.pure fun _ h => h) (hparams args)
  · exact .bind (Q := fun _ r => r.enums = es) (.map (leavesEnums_addStructure w _ _ es))
      (hparams args)

theorem leavesEnums_addFunctions (service : ServiceDecl) (names : NameTable)
    (fs : List FunctionDecl) : LeavesEnums (w.addFunctions service names fs) := by
  intro es
  induction fs generalizing names with
  | nil => exact .pure fun _ h => h
  | cons f fs ih =>
      rw [addFunctions]
      refine .bind (Q := fun _ r => r.enums = es) (.lift fun _ _ _ h => h) fun candidate => ?_
      refine .bind (leavesEnums_addFunction w service f _ es) fun first => ?_
      exact .bind (ih _) fun rest => .pure fun _ h => h

theorem leavesEnums_addService (s : ServiceDecl) : LeavesEnums (w.addService s) := by
  intro es
  rw [addService]
  refine .bind (leavesEnums_allocateGlobal w _ _ es) fun name => ?_
  refine .bind (leavesEnums_declare _ _ _ es) fun _ => ?_
  refine .bind (leavesEnums_addFunctions w s _ _ es) fun functions => ?_
  refine .bind (leavesEnums_reserveGlobal w _ _ es) fun _ => ?_
  exact .bind (leavesEnums_reserveGlobal w _ _ es) fun _ => .modify fun _ h => h

theorem leavesEnums_addTypedef (t : TypedefDecl) : LeavesEnums (w.addTypedef t) := by
  intro es
  rw [addTypedef]
  refine .bind (leavesEnums_allocateGlobal w _ _ es) fun name => ?_
  have hrest : LeavesEnums (do
      declare t.name name .typedef
      modify fun r => { r with typedefs := r.typedefs ++ [⟨t, name⟩] }) :=
    fun es => .bind (leavesEnums_declare _ _ _ es) fun _ => .modify fun _ h => h
  split
  · exact .bind (leavesEnums_reserveGlobal w _ _ es) fun _ => hrest es
  · exact hrest es

theorem leavesEnums_addConstant (c : ConstantDecl) : LeavesEnums (w.addConstant c) := by
  intro es
  rw [addConstant]
  refine .bind (leavesEnums_allocateGlobal w _ _ es) fun name => ?_
  exact .bind (leavesEnums_declare _ _ _ es) fun _ => .modify fun _ h => h

/-- The enums are those of the declarations in order, with the names of their values. -/
def HasEnums (ds : List EnumDecl) (r : Roster) : Prop :=
  r.enums.map Enum.decl = ds ∧ ∀ e ∈ r.enums, e.NamesValues w.options

/-- Naming an enum lists it with its values. -/
theorem hasEnums_addEnum (ds : List EnumDecl) (e : EnumDecl) :
    Ensures (w.HasEnums ds) (w.addEnum e) fun _ => w.HasEnums (ds ++ [e]) := by
  intro r u r' hr hrun
  -- what the enums are before does not change until the last step
  refine (?_ : Ensures (fun t => t.enums = r.enums) (w.addEnum e)
    fun _ => w.HasEnums (ds ++ [e])) r u r' rfl hrun
  rw [addEnum]
  refine .bind (leavesEnums_allocateGlobal w _ _ r.enums) fun name => ?_
  refine .bind (leavesEnums_declare _ _ _ r.enums) fun _ => .modify fun t ht => ?_
  have hvalues := allocateValues_eq w.options e.values (NameTable.behind_empty name)
  rw [HasEnums, ht, List.map_append, hr.1]
  exact ⟨rfl, List.forall_mem_append.mpr ⟨hr.2, List.forall_mem_singleton.mpr hvalues⟩⟩

theorem hasEnums_forM (es ds : List EnumDecl) :
    Ensures (w.HasEnums ds) (es.forM w.addEnum) fun _ => w.HasEnums (ds ++ es) := by
  induction es generalizing ds with
  | nil =>
      rw [List.append_nil]
      exact .pure fun _ h => h
  | cons e es ih =>
      rw [List.append_cons]
      exact .bind (hasEnums_addEnum w ds e) fun _ => ih (ds ++ [e])

/-- **A finished roster has the enums of its document,** each with all its values. -/
theorem enums_roster {r : Roster} (h : w.roster = .ok r) :
    w.HasEnums w.place.directory.document.enums r := by
  obtain ⟨⟨u, r'⟩, hrun, h⟩ := bind_eq_ok.mp h
  rw [← pure_eq_ok.mp h]
  have hkept : ∀ {α : Type} {x : Install α} {ds : List EnumDecl}, LeavesEnums x →
      Ensures (w.HasEnums ds) x fun _ => w.HasEnums ds := by
    intro α x ds hx r a r' hr hrun
    rw [HasEnums, hx r.enums r a r' rfl hrun]
    exact hr
  refine (?_ : Ensures (w.HasEnums []) w.install fun _ => w.HasEnums _) .empty u r' ?_ hrun
  · rw [install]
    refine .bind (.forM _ fun s _ => hkept (leavesEnums_addService w s)) fun _ => ?_
    refine .bind (.forM _ fun s _ => .bind (hkept (leavesEnums_addStructure w s .declared))
      fun _ => .pure fun _ h => h) fun _ => ?_
    refine .bind (hasEnums_forM w _ []) fun _ => ?_
    refine .bind (.forM _ fun t _ => hkept (leavesEnums_addTypedef w t)) fun _ => ?_
    exact .forM _ fun c _ => hkept (leavesEnums_addConstant w c)
  · exact ⟨rfl, fun _ he => absurd he List.not_mem_nil⟩

end Site

/-! ## Every file of a run -/

/-- **Names of values are as good as their sources.** Every file that a run comes to has the enums
of its document in order, each with an identifier as its name and with all its values in order. A
value is called after its enum and its source, with nothing else behind it. So its name is an
identifier exactly if all characters of its source may stand in one, and the names of different
sources differ. -/
theorem value_names_spelled_iff (o : Options) (requests : List Request) {file : String} {s : Scope}
    (hs : ((Run.new o).serveAll requests).library.scope? file = some s) :
    s.enums.map Enum.decl = s.document.enums ∧
      ∀ e ∈ s.enums, Naming.isIdentifier e.name = true ∧
        e.values.map EnumValue.decl = e.decl.values ∧
        (∀ v ∈ e.values, v.name = e.name ++ "_" ++ v.decl.name ∧
          (Naming.isIdentifier v.name = true ↔
            ∀ c ∈ v.decl.name.toList, Unicode.isXidContinue c = true)) ∧
        ∀ v ∈ e.values, ∀ v' ∈ e.values, v.decl.name ≠ v'.decl.name → v.name ≠ v'.name := by
  obtain ⟨t, m, k, -, -, hbuilt⟩ := (Run.sound_serveAll o requests).built file s hs
  obtain ⟨r, resolved, hcomes⟩ := hbuilt.comes
  obtain ⟨hdecls, hvalues⟩ := Site.enums_roster _ hcomes.named
  rw [← hcomes.enums] at hdecls hvalues
  refine ⟨hdecls.trans (congrArg Document.enums hcomes.document).symm, fun e he => ?_⟩
  have hentry := (Site.accounts_roster hcomes.named).enums e (hcomes.enums ▸ he)
  have hspelled := Site.isIdentifier_global hcomes.named hentry
  have hnames : ∀ v ∈ e.values, v.name = valueName e.name v.decl.name := by
    rw [hvalues e he]
    intro v hv
    obtain ⟨decl, -, rfl⟩ := List.mem_map.mp hv
    rfl
  refine ⟨hspelled, ?_, fun v hv => ⟨hnames v hv, ?_⟩, fun v hv v' hv' hne hname => hne ?_⟩
  · rw [hvalues e he, List.map_map]
    exact List.map_id _
  · rw [hnames v hv]
    exact isIdentifier_valueName_iff hspelled
  · rw [hnames v hv, hnames v' hv'] at hname
    exact valueName_inj hname

/-- A release calendar whose enum has to give way to the constructor of a structure, with values
outside of ASCII and one with a dot in it. -/
def Sample.releases : Tree where
  document := { Document.empty "releases.thrift" with
    structs := [⟨"struct", "Release", [], [], none⟩]
    enums := [⟨"NewRelease", [⟨"MÄRZ", 3, []⟩, ⟨"MÄRZ_", 4, []⟩, ⟨"V1.1", 11, []⟩], []⟩] }
  includes := []

set_option maxRecDepth 100000 in
/-- The enum of the calendar has an underscore behind its name, and so have its values in front of
their own. -/
theorem value_names_spelled_iff_releases : ∃ s, ∃ e ∈ s.enums, ∃ v ∈ e.values, ∃ v' ∈ e.values,
    ((Run.new {}).serveAll [.build Sample.releases]).library.scope? "releases.thrift" = some s ∧
      e.name = "NewRelease_" ∧ Naming.isIdentifier e.name = true ∧
      v.name = "NewRelease__MÄRZ" ∧ v'.name = "NewRelease__MÄRZ_" ∧
      s.enums.map Enum.decl = s.document.enums ∧ e.values.map EnumValue.decl = e.decl.values ∧
      v.name ≠ v'.name ∧ (Naming.isIdentifier v.name = true ↔
        ∀ c ∈ v.decl.name.toList, Unicode.isXidContinue c = true) := by
  have hfound : (((Run.new {}).serveAll [.build Sample.releases]).library.scope?
      "releases.thrift").any (fun s => s.enums.any fun e => e.name == "NewRelease_" &&
        e.values.any fun v => v.decl.name == "MÄRZ" && v.name == "NewRelease__MÄRZ" &&
          e.values.any fun v' => v'.decl.name == "MÄRZ_" && v'.name == "NewRelease__MÄRZ_") =
      true := by
    decide +kernel
  obtain ⟨s, hs, hfound⟩ := (Option.any_eq_true _ _).mp hfound
  simp only [List.any_eq_true, Bool.and_eq_true, beq_iff_eq] at hfound
  obtain ⟨e, he, hname, v, hv, ⟨hsource, hvalue⟩, v', hv', hsource', hvalue'⟩ := hfound
  obtain ⟨hdecls, henums⟩ := value_names_spelled_iff {} [.build Sample.releases] hs
  obtain ⟨hspelled, hvalues, hnames, hdistinct⟩ := henums e he
  refine ⟨s, e, he, v, hv, v', hv', hs, hname, hspelled, hvalue, hvalue', hdecls, hvalues,
    hdistinct v hv v' hv' ?_, (hnames v hv).2⟩
  rw [hsource, hsource']
  decide

set_option maxRecDepth 100000 in
/-- The calendar has a scope, and the name of one of its values is no identifier. -/
theorem value_name_unspelled : ∃ s, ∃ e ∈ s.enums, ∃ v ∈ e.values,
    ((Run.new {}).serveAll [.build Sample.releases]).library.scope? "releases.thrift" = some s ∧
      v.name = "NewRelease__V1.1" ∧ Naming.isIdentifier v.name = false := by
  have hfound : (((Run.new {}).serveAll [.build Sample.releases]).library.scope?
      "releases.thrift").any (fun s => s.enums.any fun e =>
        e.values.any fun v => v.name == "NewRelease__V1.1") = true := by
    decide +kernel
  obtain ⟨s, hs, hfound⟩ := (Option.any_eq_true _ _).mp hfound
  simp only [List.any_eq_true, beq_iff_eq] at hfound
  obtain ⟨e, he, v, hv, hname⟩ := hfound
  refine ⟨s, e, he, v, hv, hs, hname, ?_⟩
  rw [hname]
  decide +kernel

end IdlScope

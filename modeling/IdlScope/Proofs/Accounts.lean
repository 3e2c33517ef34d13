import IdlScope.Proofs.Keys
import IdlScope.Proofs.Rosters

/-!
# Accounts — every name of a file is in its table of globals

A declaration has a name of its own, and the generated code has names that are made from it:
constructors, tables of field numbers, clients, processors. All of them are entries of one name
table, each under a key made from the source name. This file follows naming step by step and
keeps account of the entries:

* **`GlobalRole`** — the names that are made from a name, with the words of their keys.
* **`Site.Accounts`** — the table has no repetitions, and whatever the roster lists stands in it
  under its own keys.
* **`Site.accounts_roster`** — every finished roster accounts for all that its document declares,
  and lists the structures that are made up for its functions, in order.
-/

namespace IdlScope

theorem isSome_of_identified {file raw name : String} (h : identified file raw = .ok name) :
    (Naming.identify raw).isSome := by
  rw [identify_of_identified h]
  rfl

/-! ## Names made from a name -/

/-- A name of the generated code that is made from the name of a declaration. -/
inductive GlobalRole where
  /-- The name of the declaration itself. -/
  | own
  | constructor
  | idTable
  | client
  | processor
  deriving DecidableEq

namespace GlobalRole

/-- What the name is, made from the name of the declaration. -/
def identifier : GlobalRole → String → String
  | .own, name => name
  | .constructor, name => constructorOf name
  | .idTable, name => idTableOf name
  | .client, name => clientOf name
  | .processor, name => processorOf name

/-- The word of its key. -/
def keyWord : GlobalRole → Option String
  | .own => none
  | .constructor => some "new"
  | .idTable => some "ids"
  | .client => some "client"
  | .processor => some "processor"

/-- The entry of the name, for a declaration with a source name and a name. -/
def entry (role : GlobalRole) (source name : String) : String × String :=
  (Naming.tagged role.keyWord source, role.identifier name)

/-- The entries of a declaration that has several. -/
def entries (roles : List GlobalRole) (source name : String) : List (String × String) :=
  roles.map (·.entry source name)

/-- What is made from the name of a struct, union or exception. -/
def ofStructure : List GlobalRole := [.own, .constructor, .idTable]

/-- What is made from the name of a service. -/
def ofService : List GlobalRole := [.own, .client, .processor]

/-- What is made from the name of a typedef. -/
def ofTypedef (t : TypedefDecl) : List GlobalRole :=
  .own :: if t.target.category.isStructLike then [.constructor] else []

theorem keyWord_injective : Function.Injective keyWord := by
  intro role role' h
  revert h
  cases role <;> cases role' <;> decide

theorem colon_not_mem_keyWord (role : GlobalRole) : ∀ w ∈ role.keyWord, ':' ∉ w.toList := by
  cases role <;> decide

end GlobalRole

/-- The source names of a document's declarations, each with what is made from it, in the order
of naming. -/
def Document.roles (d : Document) : List (String × List GlobalRole) :=
  d.services.map (fun s => (s.name, GlobalRole.ofService)) ++
    d.structLikes.map (fun s => (s.name, GlobalRole.ofStructure)) ++
    d.enums.map (fun e => (e.name, [GlobalRole.own])) ++
    d.typedefs.map (fun t => (t.name, GlobalRole.ofTypedef t)) ++
    d.constants.map fun c => (c.name, [GlobalRole.own])

/-! ## Structures that are made up -/

/-- The structure, if its purpose is not that it is declared. -/
def Site.Purpose.madeUp (purpose : Site.Purpose) (s : StructDecl) : List StructDecl :=
  if purpose = .declared then [] else [s]

/-- The structures that are made up for a function. -/
def FunctionDecl.madeUp (service : ServiceDecl) (f : FunctionDecl) : List StructDecl :=
  Site.argsStruct service f :: if f.oneway then [] else [Site.resultStruct service f]

/-- The entries of the structures that are made up for a function, if they are named so. -/
def FunctionDecl.madeUpEntries (service : ServiceDecl) (f : FunctionDecl) (args : String)
    (result : Option String) : List (String × String) :=
  ((Site.argsStruct service f).name, args) ::
    (result.map fun name => ((Site.resultStruct service f).name, name)).toList

/-- The structures that are made up for the functions of a service. -/
def ServiceDecl.madeUp (s : ServiceDecl) : List StructDecl :=
  s.functions.flatMap (FunctionDecl.madeUp s)

/-- The structures that are made up for a document, in the order of naming. -/
def Document.madeUp (d : Document) : List StructDecl :=
  d.services.flatMap ServiceDecl.madeUp

namespace NamedFunction

/-- The entries of the structures of a function. -/
def entries (service : ServiceDecl) (f : NamedFunction) : List (String × String) :=
  f.decl.madeUpEntries service f.argsStruct f.resultStruct

/-- The names that a function gives for its structures are those of the structures that are made
up for it. -/
structure Made (service : ServiceDecl) (es : List (String × String)) (made : List StructDecl)
    (f : NamedFunction) : Prop where
  entries : f.entries service ⊆ es
  result : f.resultStruct.isSome = !f.decl.oneway
  listed : f.decl.madeUp service ⊆ made

theorem Made.mono {service : ServiceDecl} {es es' : List (String × String)}
    {made made' : List StructDecl} {f : NamedFunction} (h : f.Made service es made)
    (hes : es ⊆ es') (hmade : made ⊆ made') : f.Made service es' made' :=
  ⟨List.Subset.trans h.entries hes, h.result, List.Subset.trans h.listed hmade⟩

end NamedFunction

namespace StructureLists

variable {α : Type} {l : StructureLists α} {s t : Structure α}

/-- The structures in the lists of declared ones. -/
def declared (l : StructureLists α) : List (Structure α) :=
  l.structs ++ l.unions ++ l.exceptions

theorem mem_all_iff : t ∈ l.all ↔ t ∈ l.declared ∨ t ∈ l.madeUp :=
  List.mem_append

theorem madeUp_push : (l.push s).madeUp = l.madeUp ++ if s.madeUp then [s] else [] := by
  unfold push
  split
  · rfl
  · split <;> exact (List.append_nil _).symm

theorem mem_declared_push (h : t ∈ (l.push s).declared) :
    t ∈ l.declared ∨ (t = s ∧ s.madeUp = false) := by
  unfold push at h
  split at h
  · exact .inl h
  · next hmade =>
    have hfalse := Bool.eq_false_iff.mpr hmade
    split at h <;> simp only [declared, List.mem_append, List.mem_singleton] at h ⊢ <;> tauto

end StructureLists

namespace Site

variable (w : Site)

/-- A structure is there for a purpose, its fields and members are named from its plans, and no
child takes a number. -/
structure Names (st : Structure NamedField) (purpose : Purpose) (plans : List (Slot FieldPlan)) :
    Prop where
  madeUp : st.madeUp = (purpose != .declared)
  planned : planSlots w.options w.library w.place st.decl = .ok plans
  numbered : takenId? plans = none
  methods : st.methods = methodNames w.options st.kind st.madeUp
  members : st.members = ((nameSlots w.options plans).run (methodTable st.methods)).2
  slots : st.slots =
    w.slotsFor st.decl purpose ((nameSlots w.options plans).run (methodTable st.methods)).1

/-- The source name can be exported, and the entries have all that is made from a name of it. -/
def Holds (es : List (String × String)) (e : String × List GlobalRole) : Prop :=
  (Naming.identify e.1).isSome ∧ ∃ name, GlobalRole.entries e.2 e.1 name ⊆ es

/-- The table of globals has the entries `es` and all that is made from names of `held`, for what
is listed as well, without repetitions; `made` are the made-up structures in order. -/
structure Accounts (es : List (String × String)) (held : List (String × List GlobalRole))
    (made : List StructDecl) (r : Roster) : Prop where
  distinct : r.globals.Distinct
  entries : es ⊆ r.globals.entries
  holds : ∀ e ∈ held, Holds r.globals.entries e
  madeUp : r.structures.madeUp.map Structure.decl = made
  sorted : ∀ st ∈ r.structures.declared, st.madeUp = false
  structures : ∀ st ∈ r.structures.all, (∃ purpose plans, w.Names st purpose plans) ∧
    (Naming.identify st.source).isSome ∧
      GlobalRole.entries GlobalRole.ofStructure st.source st.name ⊆ r.globals.entries
  services : ∀ v ∈ r.services,
    GlobalRole.entries GlobalRole.ofService v.decl.name v.name ⊆ r.globals.entries ∧
      ∀ f ∈ v.namedFunctions, f.Made v.decl r.globals.entries made
  enums : ∀ e ∈ r.enums, (e.decl.name, e.name) ∈ r.globals.entries
  typedefs : ∀ t ∈ r.typedefs,
    GlobalRole.entries (GlobalRole.ofTypedef t.decl) t.decl.name t.name ⊆ r.globals.entries
  constants : ∀ c ∈ r.constants, (c.decl.name, c.name) ∈ r.globals.entries
  declared : ∀ source d, r.declared.get? source = some d → (source, d.name) ∈ r.globals.entries

theorem accounts_empty : w.Accounts [] [] [] .empty := by
  constructor <;> simp [Roster.empty, StructureLists.empty, StructureLists.all,
    StructureLists.declared, Table.empty, Table.get?, NameTable.distinct_empty]

variable {es es' : List (String × String)} {held : List (String × List GlobalRole)}
  {made : List StructDecl} {w} {r : Roster}

theorem Holds.mono {e : String × List GlobalRole} (h : Holds es e) (hes : es ⊆ es') :
    Holds es' e := by
  obtain ⟨hsource, name, hentries⟩ := h
  exact ⟨hsource, name, List.Subset.trans hentries hes⟩

namespace Accounts

variable (h : w.Accounts es held made r)
include h

/-- Entries may be forgotten, and a table may grow. -/
theorem grow {globals : NameTable} (hdistinct : globals.Distinct)
    (hkept : r.globals.entries ⊆ globals.entries) (hes : es' ⊆ globals.entries) :
    w.Accounts es' held made { r with globals := globals } where
  distinct := hdistinct
  entries := hes
  holds := fun e he => (h.holds e he).mono hkept
  madeUp := h.madeUp
  sorted := h.sorted
  structures := fun st hst => by
    obtain ⟨hnames, hsource, hentries⟩ := h.structures st hst
    exact ⟨hnames, hsource, List.Subset.trans hentries hkept⟩
  services := fun v hv => by
    obtain ⟨hentries, hfunctions⟩ := h.services v hv
    exact ⟨List.Subset.trans hentries hkept,
      fun f hf => (hfunctions f hf).mono hkept (List.Subset.refl _)⟩
  enums := fun e he => hkept (h.enums e he)
  typedefs := fun t ht => List.Subset.trans (h.typedefs t ht) hkept
  constants := fun c hc => hkept (h.constants c hc)
  declared := fun source d hd => hkept (h.declared source d hd)

theorem forget (hes : es' ⊆ es) : w.Accounts es' held made r :=
  h.grow h.distinct (List.Subset.refl _) (List.Subset.trans hes h.entries)

/-- A declaration with all its entries is held. -/
theorem hold {source name : String} {roles : List GlobalRole}
    (hsource : (Naming.identify source).isSome)
    (hes : GlobalRole.entries roles source name ⊆ r.globals.entries) :
    w.Accounts [] (held ++ [(source, roles)]) made r := by
  refine { h with entries := List.nil_subset _, holds := ?_ }
  intro e he
  rcases List.mem_append.mp he with he | he
  · exact h.holds e he
  · rw [List.mem_singleton.mp he]
    exact ⟨hsource, name, hes⟩

/-- A structure that has its entries is listed. -/
theorem push {st : Structure NamedField} (expansions : Table ExpansionRecord)
    (hnames : ∃ purpose plans, w.Names st purpose plans)
    (hsource : (Naming.identify st.source).isSome)
    (hes : GlobalRole.entries GlobalRole.ofStructure st.source st.name ⊆ es) :
    w.Accounts es held (made ++ if st.madeUp then [st.decl] else [])
      { r with structures := r.structures.push st, expansions := expansions } := by
  refine { h with madeUp := ?_, sorted := ?_, structures := ?_, services := ?_ }
  · dsimp only
    rw [StructureLists.madeUp_push, List.map_append, h.madeUp]
    split <;> rfl
  · intro other hother
    rcases StructureLists.mem_declared_push hother with hother | ⟨rfl, hmade⟩
    · exact h.sorted other hother
    · exact hmade
  · intro other hother
    rcases StructureLists.mem_all_push.mp hother with hother | rfl
    · exact h.structures other hother
    · exact ⟨hnames, hsource, List.Subset.trans hes h.entries⟩
  · intro v hv
    obtain ⟨hentries, hfunctions⟩ := h.services v hv
    exact ⟨hentries, fun f hf =>
      (hfunctions f hf).mono (List.Subset.refl _) (List.subset_append_left _ _)⟩

theorem pushService {v : NamedService}
    (hentries : GlobalRole.entries GlobalRole.ofService v.decl.name v.name ⊆ r.globals.entries)
    (hfunctions : ∀ f ∈ v.namedFunctions, f.Made v.decl r.globals.entries made) :
    w.Accounts es held made { r with services := r.services ++ [v] } :=
  { h with
    services := List.forall_mem_append.mpr ⟨h.services,
      List.forall_mem_singleton.mpr ⟨hentries, hfunctions⟩⟩ }

theorem pushEnum {e : Enum} (hentry : (e.decl.name, e.name) ∈ es) :
    w.Accounts es held made { r with enums := r.enums ++ [e] } :=
  { h with
    enums := List.forall_mem_append.mpr ⟨h.enums,
      List.forall_mem_singleton.mpr (h.entries hentry)⟩ }

theorem pushTypedef {t : NamedTypedef}
    (hentries : GlobalRole.entries (GlobalRole.ofTypedef t.decl) t.decl.name t.name ⊆ es) :
    w.Accounts es held made { r with typedefs := r.typedefs ++ [t] } :=
  { h with
    typedefs := List.forall_mem_append.mpr ⟨h.typedefs,
      List.forall_mem_singleton.mpr (List.Subset.trans hentries h.entries)⟩ }

theorem pushConstant {c : NamedConstant} (hentry : (c.decl.name, c.name) ∈ es) :
    w.Accounts es held made { r with constants := r.constants ++ [c] } :=
  { h with
    constants := List.forall_mem_append.mpr ⟨h.constants,
      List.forall_mem_singleton.mpr (h.entries hentry)⟩ }

end Accounts

/-! ## Steps keep account -/

section Steps

variable (w)

theorem accounts_report (ds : List Diagnostic) :
    Ensures (w.Accounts es held made) (report ds) fun _ => w.Accounts es held made :=
  .modify fun _ h => { h with }

/-- A declaration that asks for a name can be exported and gets an entry. -/
theorem accounts_allocateGlobal (source : String) (madeUp : Bool) :
    Ensures (w.Accounts es held made) (w.allocateGlobal source madeUp) fun name r =>
      (Naming.identify source).isSome ∧ w.Accounts ((source, name) :: es) held made r := by
  rw [allocateGlobal]
  refine .bind (Q := fun _ r => (Naming.identify source).isSome ∧ w.Accounts es held made r)
    (.lift fun candidate r hcandidate hr => ?_) fun candidate => .given fun hsource => ?_
  · obtain ⟨exported, hexported, -⟩ := bind_eq_ok.mp hcandidate
    exact ⟨isSome_of_identified hexported, hr⟩
  · refine .bind_get fun r hr => ?_
    have hgives := r.globals.gives_add candidate source
    refine .bind (Q := fun _ => w.Accounts ((source, (r.globals.add candidate source).1) :: es)
      held made) (.set fun _ => hr.grow (hgives.distinct hr.distinct) hgives.kept ?_)
      fun _ => .pure fun _ h => ⟨hsource, h⟩
    exact List.cons_subset.mpr ⟨hgives.given, List.Subset.trans hr.entries hgives.kept⟩

/-- A name that is made from another gets the entry of its role. -/
theorem accounts_reserveGlobal (role : GlobalRole) (source name : String) {key : String}
    (hkey : Naming.synthetic key = Naming.tagged role.keyWord source) :
    Ensures (w.Accounts es held made) (w.reserveGlobal (role.identifier name) key) fun _ =>
      w.Accounts (role.entry source name :: es) held made := by
  rw [reserveGlobal, hkey]
  refine .bind_get fun r hr => ?_
  split
  · next globals hglobals =>
    have hgives := NameTable.gives_reserve hglobals
    refine .set fun _ => hr.grow (hgives.distinct hr.distinct) hgives.kept ?_
    exact List.cons_subset.mpr ⟨hgives.given, List.Subset.trans hr.entries hgives.kept⟩
  · exact .throw

/-- A declaration is entered under the name that its source name has. -/
theorem accounts_declare {source name : String} (hes : (source, name) ∈ es) (kind : DeclKind) :
    Ensures (w.Accounts es held made) (declare source name kind) fun _ =>
      w.Accounts es held made := by
  refine .modify fun r h => { h with declared := ?_ }
  intro other d hd
  rw [Table.get?_set] at hd
  split at hd
  · next heq =>
    obtain rfl := Option.some.inj hd
    rw [heq]
    exact h.entries hes
  · exact h.declared other d hd

theorem accounts_nameFields (s : StructDecl) (name : String) (kind : StructKind)
    (purpose : Purpose) :
    Ensures (w.Accounts es held made) (w.nameFields s name kind purpose) fun st r =>
      (st.decl = s ∧ st.name = name ∧ ∃ plans, w.Names st purpose plans) ∧
        w.Accounts es held made r := by
  rw [nameFields]
  refine .bind (Q := fun plans r => planSlots w.options w.library w.place s = .ok plans ∧
    w.Accounts es held made r) (.lift fun plans r hplans hr => ⟨hplans, hr⟩) fun plans => ?_
  refine .given fun hplans => ?_
  dsimp only
  cases htaken : takenId? plans with
  | some taken => exact .bind (Q := fun _ _ => False) .throw fun _ _ _ _ h _ => h.elim
  | none =>
      refine .bind (accounts_report w _) fun _ => .pure fun r hr => ⟨⟨rfl, rfl, plans, ?_⟩, hr⟩
      exact ⟨rfl, hplans, htaken, rfl, rfl, rfl⟩

/-- A structure that has its entries is listed. -/
theorem accounts_listStructure {s : StructDecl} (hsource : (Naming.identify s.name).isSome)
    (name : String) (kind : StructKind) (purpose : Purpose) :
    Ensures (w.Accounts (GlobalRole.entries GlobalRole.ofStructure s.name name ++ es) held made)
      (w.listStructure s name kind purpose) fun name r => (Naming.identify s.name).isSome ∧
        w.Accounts (GlobalRole.entries GlobalRole.ofStructure s.name name ++ es) held
          (made ++ purpose.madeUp s) r := by
  rw [listStructure]
  refine .bind (accounts_report w _) fun _ => ?_
  refine .bind (accounts_nameFields w s name kind purpose) fun st => .given fun hst => ?_
  obtain ⟨rfl, rfl, plans, hnames⟩ := hst
  have hmade : purpose.madeUp st.decl = if st.madeUp then [st.decl] else [] := by
    rw [hnames.madeUp]
    cases purpose <;> rfl
  rw [hmade]
  refine .bind (.modify fun r h => ?_) fun _ => .pure fun _ h => ⟨hsource, h⟩
  exact h.push _ ⟨purpose, plans, hnames⟩ hsource (List.subset_append_left _ _)

/-- A structure that is named has its entries; unless its kind is unknown it is listed. -/
theorem accounts_addStructure (s : StructDecl) (purpose : Purpose)
    (hkind : purpose ≠ .declared → (StructKind.ofSpelling? s.category).isSome) :
    Ensures (w.Accounts es held made) (w.addStructure s purpose) fun name r =>
      (Naming.identify s.name).isSome ∧
        w.Accounts (GlobalRole.entries GlobalRole.ofStructure s.name name ++ es) held
          (made ++ purpose.madeUp s) r := by
  rw [addStructure_eq_bind]
  refine .bind (accounts_allocateGlobal w _ _) fun name => .given fun hsource => ?_
  refine .bind (accounts_reserveGlobal w .constructor s.name name rfl) fun _ => ?_
  refine .bind (accounts_reserveGlobal w .idTable s.name name rfl) fun _ => ?_
  have hentries : GlobalRole.entries GlobalRole.ofStructure s.name name ++ es ⊆
      GlobalRole.idTable.entry s.name name :: GlobalRole.constructor.entry s.name name ::
        (s.name, name) :: es := by
    intro e he
    simp only [GlobalRole.entries, GlobalRole.ofStructure, List.map_cons, List.map_nil,
      List.cons_append, List.nil_append, List.mem_cons] at he ⊢
    tauto
  refine Ensures.strengthen (P := w.Accounts
    (GlobalRole.entries GlobalRole.ofStructure s.name name ++ es) held made) ?_
    fun r hr => hr.forget hentries
  split
  · next hunknown =>
    have hdeclared : purpose = .declared := by
      by_contra hmade
      have := hkind hmade
      rw [hunknown] at this
      cases this
    rw [hdeclared, Purpose.madeUp, if_pos rfl, List.append_nil]
    exact .bind (accounts_report w _) fun _ => .pure fun _ h => ⟨hsource, h⟩
  · next kind _ =>
    split
    · exact .bind (accounts_declare w (List.mem_append_left _ List.mem_cons_self) _)
        fun _ => accounts_listStructure w hsource name kind purpose
    · exact accounts_listStructure w hsource name kind purpose

/-- A function is named with the structures that are made up for it. -/
theorem accounts_addFunction (service : ServiceDecl) (f : FunctionDecl) (name : String) :
    Ensures (w.Accounts es held made) (w.addFunction service f name) fun fn r =>
      (fn.decl = f ∧ fn.resultStruct.isSome = !f.oneway) ∧
        w.Accounts (fn.entries service ++ es) held (made ++ f.madeUp service) r := by
  rw [addFunction_eq_bind]
  refine .bind (accounts_addStructure w (argsStruct service f) .arguments fun _ => rfl)
    fun args => .given fun _ => ?_
  have hargs : ((argsStruct service f).name, args) ∈
      GlobalRole.entries GlobalRole.ofStructure (argsStruct service f).name args :=
    List.mem_cons_self
  -- with or without a result, the entries of the structures are there before the parameters
  let Q : Option String → Roster → Prop := fun result r => result.isSome = !f.oneway ∧
    w.Accounts (f.madeUpEntries service args result ++ es) held (made ++ f.madeUp service) r
  have hparams : ∀ result, Ensures (Q result) (w.nameParams f name args result) fun fn r =>
      (fn.decl = f ∧ fn.resultStruct.isSome = !f.oneway) ∧
        w.Accounts (fn.entries service ++ es) held (made ++ f.madeUp service) r := by
    refine fun result => (ensures_nameParams w f name args result).weaken fun fn r h => ?_
    obtain ⟨⟨rfl, -, rfl, rfl, -⟩, hresult, hr⟩ := h
    exact ⟨⟨rfl, hresult⟩, hr⟩
  split
  · next honeway =>
    refine .bind (Q := Q) (.pure fun r h => ⟨by rw [honeway]; rfl, ?_⟩) hparams
    rw [FunctionDecl.madeUp, if_pos honeway]
    refine h.forget (List.cons_subset.mpr ⟨?_, List.subset_append_right _ _⟩)
    exact List.mem_append_left _ hargs
  · next honeway =>
    refine .bind (Q := Q) (.map ((accounts_addStructure w (resultStruct service f) .result
      fun _ => rfl).weaken fun name r h => ⟨by rw [Bool.eq_false_iff.mpr honeway]; rfl, ?_⟩))
      hparams
    rw [FunctionDecl.madeUp, if_neg honeway]
    rw [List.append_assoc] at h
    refine h.2.forget (List.cons_subset.mpr ⟨?_, List.cons_subset.mpr ⟨?_, ?_⟩⟩)
    · exact List.mem_append_right _ (List.mem_append_left _ hargs)
    · exact List.mem_cons_self
    · exact List.Subset.trans (List.subset_append_right _ _) (List.subset_append_right _ _)

theorem accounts_addFunctions (service : ServiceDecl) (names : NameTable)
    (fs : List FunctionDecl) :
    Ensures (w.Accounts es held made) (w.addFunctions service names fs) fun fns r =>
      (fns.map NamedFunction.decl = fs ∧ ∀ fn ∈ fns, fn.resultStruct.isSome = !fn.decl.oneway) ∧
        w.Accounts (fns.flatMap (NamedFunction.entries service) ++ es) held
          (made ++ fs.flatMap (FunctionDecl.madeUp service)) r := by
  induction fs generalizing names es made with
  | nil =>
      refine .pure fun _ h => ⟨⟨rfl, fun _ hfn => absurd hfn List.not_mem_nil⟩, ?_⟩
      exact (List.append_nil made).symm ▸ h
  | cons f fs ih =>
      rw [addFunctions]
      refine .bind (Q := fun _ => w.Accounts es held made) (.lift fun _ _ _ h => h)
        fun candidate => ?_
      refine .bind (accounts_addFunction w service f _) fun first => .given fun hfirst => ?_
      refine .bind (ih _) fun rest => .given fun hrest => .pure fun r h => ⟨⟨?_, ?_⟩, ?_⟩
      · rw [List.map_cons, hfirst.1, hrest.1]
      · exact List.forall_mem_cons.mpr ⟨hfirst.1 ▸ hfirst.2, hrest.2⟩
      · rw [List.append_assoc made] at h
        rw [List.flatMap_cons, List.flatMap_cons]
        refine h.forget fun e he => ?_
        simp only [List.mem_append] at he ⊢
        tauto

/-! ## Declarations keep account -/

/-- A step that names declarations and lists what is made up for them. -/
abbrev Enters {α : Type} (x : Install α) (e : List (String × List GlobalRole))
    (ms : List StructDecl) : Prop :=
  ∀ held made, Ensures (w.Accounts [] held made) x fun _ =>
    w.Accounts [] (held ++ e) (made ++ ms)

theorem enters_addService (s : ServiceDecl) :
    w.Enters (w.addService s) [(s.name, GlobalRole.ofService)] s.madeUp := by
  intro held made
  rw [addService]
  refine .bind (accounts_allocateGlobal w _ _) fun name => .given fun hsource => ?_
  refine .bind (accounts_declare w List.mem_cons_self _) fun _ => ?_
  refine .bind (accounts_addFunctions w s _ _) fun functions => .given fun hfunctions => ?_
  refine .bind (accounts_reserveGlobal w .client s.name name rfl) fun _ => ?_
  refine .bind (accounts_reserveGlobal w .processor s.name name rfl) fun _ => ?_
  refine .modify fun r h => ?_
  obtain ⟨hdecls, hresults⟩ := hfunctions
  have hown : GlobalRole.entries GlobalRole.ofService s.name name ⊆ r.globals.entries := by
    refine List.Subset.trans (fun e he => ?_) h.entries
    simp only [GlobalRole.entries, GlobalRole.ofService, List.map_cons, List.map_nil,
      List.mem_cons, List.not_mem_nil, or_false] at he
    simp only [List.mem_cons, List.mem_append]
    tauto
  have hmade : ∀ fn ∈ functions, fn.Made s r.globals.entries (made ++ s.madeUp) := by
    intro fn hfn
    refine ⟨fun e he => h.entries ?_, hresults fn hfn, fun st hst => ?_⟩
    · have := List.mem_flatMap.mpr ⟨fn, hfn, he⟩
      simp only [List.mem_cons, List.mem_append]
      tauto
    · refine List.mem_append_right _ (List.mem_flatMap.mpr ⟨fn.decl, ?_, hst⟩)
      rw [← hdecls]
      exact List.mem_map_of_mem hfn
  exact (h.pushService (v := ⟨s, name, functions⟩) hown hmade).hold hsource hown

theorem enters_addStructure (s : StructDecl) :
    w.Enters (w.addStructure s .declared) [(s.name, GlobalRole.ofStructure)] [] := by
  intro held made
  refine (accounts_addStructure w s .declared (absurd rfl)).weaken fun name r h => ?_
  exact h.2.hold h.1 (List.Subset.trans (List.subset_append_left _ _) h.2.entries)

theorem enters_addEnum (e : EnumDecl) :
    w.Enters (w.addEnum e) [(e.name, [GlobalRole.own])] [] := by
  intro held made
  rw [addEnum, List.append_nil]
  refine .bind (accounts_allocateGlobal w _ _) fun name => .given fun hsource => ?_
  refine .bind (accounts_declare w List.mem_cons_self _) fun _ => .modify fun r h => ?_
  exact (h.pushEnum (e := ⟨e, name, _⟩) List.mem_cons_self).hold hsource h.entries

theorem enters_addTypedef (t : TypedefDecl) :
    w.Enters (w.addTypedef t) [(t.name, GlobalRole.ofTypedef t)] [] := by
  intro held made
  rw [addTypedef, List.append_nil]
  refine .bind (accounts_allocateGlobal w _ _) fun name => .given fun hsource => ?_
  have hrest : ∀ {es}, (t.name, name) ∈ es →
      GlobalRole.entries (GlobalRole.ofTypedef t) t.name name ⊆ es →
      Ensures (w.Accounts es held made) (do
        declare t.name name .typedef
        modify fun r => { r with typedefs := r.typedefs ++ [⟨t, name⟩] })
        fun _ => w.Accounts [] (held ++ [(t.name, GlobalRole.ofTypedef t)]) made := by
    intro es hmem hes
    refine .bind (accounts_declare w hmem _) fun _ => .modify fun r h => ?_
    exact (h.pushTypedef (t := ⟨t, name⟩) hes).hold hsource (List.Subset.trans hes h.entries)
  split
  · next hstruct =>
    refine .bind (accounts_reserveGlobal w .constructor t.name name rfl) fun _ => hrest ?_ ?_
    · exact List.mem_cons_of_mem _ List.mem_cons_self
    · rw [GlobalRole.ofTypedef, if_pos hstruct]
      intro e he
      simp only [GlobalRole.entries, List.map_cons, List.map_nil, List.mem_cons,
        List.not_mem_nil, or_false] at he ⊢
      tauto
  · next hstruct =>
    refine hrest List.mem_cons_self ?_
    rw [GlobalRole.ofTypedef, if_neg hstruct]
    exact List.Subset.refl _

theorem enters_addConstant (c : ConstantDecl) :
    w.Enters (w.addConstant c) [(c.name, [GlobalRole.own])] [] := by
  intro held made
  rw [addConstant, List.append_nil]
  refine .bind (accounts_allocateGlobal w _ _) fun name => .given fun hsource => ?_
  refine .bind (accounts_declare w List.mem_cons_self _) fun _ => .modify fun r h => ?_
  exact (h.pushConstant (c := ⟨c, name⟩) List.mem_cons_self).hold hsource h.entries

theorem enters_forM {α : Type} {f : α → Install PUnit} {e : α → String × List GlobalRole}
    {ms : α → List StructDecl} (h : ∀ a, w.Enters (f a) [e a] (ms a)) (as : List α) :
    w.Enters (as.forM f) (as.map e) (as.flatMap ms) := by
  induction as with
  | nil =>
      intro held made
      exact .pure fun r hr => by simpa using hr
  | cons a as ih =>
      intro held made
      refine .bind (h a held made) fun _ => (ih _ _).weaken fun _ r hr => ?_
      rwa [List.map_cons, List.flatMap_cons, ← List.append_assoc,
        ← List.singleton_append (l := as.map e), ← List.append_assoc]

theorem enters_install :
    w.Enters w.install w.place.directory.document.roles w.place.directory.document.madeUp := by
  intro held made
  rw [install]
  refine .bind (enters_forM w (enters_addService w) _ held made) fun _ => ?_
  refine .bind (enters_forM w (fun s => fun held made => .bind (enters_addStructure w s held made)
    fun _ => .pure fun _ h => h) _ _ _) fun _ => ?_
  refine .bind (enters_forM w (enters_addEnum w) _ _ _) fun _ => ?_
  refine .bind (enters_forM w (enters_addTypedef w) _ _ _) fun _ => ?_
  refine (enters_forM w (enters_addConstant w) _ _ _).weaken fun _ r hr => ?_
  have hnil : ∀ {α : Type} (as : List α), as.flatMap (fun _ => ([] : List StructDecl)) = [] :=
    fun as => List.flatMap_eq_nil_iff.mpr fun _ _ => rfl
  simp only [hnil, List.append_nil] at hr
  simpa only [Document.roles, Document.madeUp, List.append_assoc] using hr

end Steps

/-- **A roster accounts for what its document declares**, structures of unknown kinds included,
and lists what is made up for its functions, in order. -/
theorem accounts_roster {w : Site} {r : Roster} (h : w.roster = .ok r) :
    w.Accounts [] w.place.directory.document.roles w.place.directory.document.madeUp r := by
  obtain ⟨⟨u, r'⟩, hrun, h⟩ := bind_eq_ok.mp h
  rw [← pure_eq_ok.mp h]
  exact enters_install w [] [] .empty u r' w.accounts_empty hrun

end Site

end IdlScope

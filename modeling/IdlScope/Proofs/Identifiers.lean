import IdlScope.Proofs.Members
import IdlScope.Proofs.Stages

/-!
# Identifiers — every name of a file can stand in code

Names grow: a candidate that is taken gets underscores, constructors, clients and accessors are
put together from other names, and some accessors hold the number of their field, which may be
negative. Whatever a name went through, it is still an identifier:

* **`Classes.isIdentifier_append`** — an identifier with identifier characters behind it is one.
* **`AccessorRole.isIdentifier_candidate`** — so is what an accessor asks for, whatever the number
  of its field.
* **`Site.spelled_roster`** — so all names of a finished roster are identifiers: the global ones,
  the reserved ones among them, those inside structures, made up or not, and those of functions.
* **`names_spelledIn`** — and they still are in every file that a run comes to.
* **`names_spelled`** — the classes of the standard are such classes.

All that this needs of the classes of characters (`Classes`) is that what starts an identifier may
stand inside of one, and that ASCII letters, digits and the underscore are where they belong.
-/

namespace IdlScope

namespace Naming

/-- What is not a character of identifiers is in none. -/
theorem not_mem_of_isIdentifier {name : String} (h : isIdentifier name = true) {c : Char}
    (hc : Unicode.isXidContinue c = false) : c ∉ name.toList := by
  intro hmem
  have hcontinue := isXidContinue_of_mem h hmem
  rw [hc] at hcontinue
  cases hcontinue

/-! ## Classes of characters -/

/-- Which characters may start a name, and which may stand inside of one. What starts a name may
stand inside as well, and the characters of ASCII are where they belong. -/
structure Classes where
  starts : Char → Bool
  continues : Char → Bool
  continues_of_starts : ∀ c, starts c = true → continues c = true
  starts_of_isAlpha : ∀ c : Char, c.isAlpha = true → starts c = true
  continues_of_isDigit : ∀ c : Char, c.isDigit = true → continues c = true
  continues_underscore : continues '_' = true

/-- Is the character a letter, a digit or an underscore of ASCII? -/
def isPlain (c : Char) : Bool :=
  c.isAlphanum || c == '_'

/-- Is the text made of such characters, with no digit in front? -/
def isPlainWord (s : String) : Bool :=
  (s.toList.head?.any fun c => c.isAlpha || c == '_') && s.toList.all isPlain

namespace Classes

/-- The classes of the standard. -/
def xid : Classes where
  starts := Unicode.isXidStart
  continues := Unicode.isXidContinue
  continues_of_starts _ := Unicode.isXidContinue_of_start
  starts_of_isAlpha _ := Unicode.isXidStart_of_isAlpha
  continues_of_isDigit _ := Unicode.isXidContinue_of_isDigit
  continues_underscore := Unicode.isXidContinue_underscore

variable (k : Classes)

/-- Is the list of characters an identifier? -/
def isIdentifierChars : List Char → Bool
  | [] => false
  | c :: rest => (c == '_' || k.starts c) && rest.all k.continues

/-- Is the text an identifier? -/
def isIdentifier (s : String) : Bool :=
  k.isIdentifierChars s.toList

/-- All that source names are exported as are identifiers. -/
def Exports : Prop :=
  ∀ raw name, identify raw = some name → k.isIdentifier name = true

theorem isIdentifier_xid (s : String) : xid.isIdentifier s = Naming.isIdentifier s := by
  rw [isIdentifier, Naming.isIdentifier]
  cases s.toList <;> rfl

theorem exports_xid : xid.Exports := by
  intro raw name h
  rw [isIdentifier_xid]
  exact isIdentifier_of_identify h

variable {k}

theorem continues_of_isPlain {c : Char} (h : isPlain c = true) : k.continues c = true := by
  rcases Bool.or_eq_true_iff.mp h with h | h
  · rcases Bool.or_eq_true_iff.mp h with h | h
    · exact k.continues_of_starts c (k.starts_of_isAlpha c h)
    · exact k.continues_of_isDigit c h
  · rw [beq_iff_eq.mp h]
    exact k.continues_underscore

theorem isIdentifier_of_isPlainWord {word : String} (h : isPlainWord word = true) :
    k.isIdentifier word = true := by
  rw [isPlainWord] at h
  rw [isIdentifier]
  cases hword : word.toList with
  | nil =>
      rw [hword] at h
      cases h
  | cons c cs =>
      rw [hword] at h
      obtain ⟨hfirst, hall⟩ := Bool.and_eq_true_iff.mp h
      refine Bool.and_eq_true_iff.mpr ⟨?_, List.all_eq_true.mpr fun d hd => ?_⟩
      · rcases Bool.or_eq_true_iff.mp hfirst with hletter | hgap
        · rw [k.starts_of_isAlpha c hletter, Bool.or_true]
        · rw [hgap, Bool.true_or]
      · exact continues_of_isPlain (List.all_eq_true.mp hall d (List.mem_cons_of_mem c hd))

theorem continues_of_mem {name : String} (h : k.isIdentifier name = true) {c : Char}
    (hc : c ∈ name.toList) : k.continues c = true := by
  rw [isIdentifier] at h
  cases hname : name.toList with
  | nil =>
      rw [hname] at h
      cases h
  | cons d cs =>
      rw [hname] at h hc
      obtain ⟨hfirst, hrest⟩ := Bool.and_eq_true_iff.mp h
      rcases List.mem_cons.mp hc with rfl | hc
      · rcases Bool.or_eq_true_iff.mp hfirst with hgap | hstart
        · rw [beq_iff_eq.mp hgap]
          exact k.continues_underscore
        · exact k.continues_of_starts c hstart
      · exact List.all_eq_true.mp hrest c hc

/-- An identifier stays one if characters of identifiers follow. -/
theorem isIdentifier_append {name rest : String} (h : k.isIdentifier name = true)
    (hrest : ∀ c ∈ rest.toList, k.continues c = true) :
    k.isIdentifier (name ++ rest) = true := by
  rw [isIdentifier] at h ⊢
  rw [String.toList_append]
  cases hname : name.toList with
  | nil =>
      rw [hname] at h
      cases h
  | cons c cs =>
      rw [hname] at h
      obtain ⟨hfirst, hall⟩ := Bool.and_eq_true_iff.mp h
      rw [List.cons_append, isIdentifierChars, List.all_append, hfirst, hall,
        List.all_eq_true.mpr hrest]
      rfl

theorem isIdentifier_append_plain {name word : String} (h : k.isIdentifier name = true)
    (hword : word.toList.all isPlain = true) : k.isIdentifier (name ++ word) = true :=
  isIdentifier_append h fun c hc => continues_of_isPlain (List.all_eq_true.mp hword c hc)

/-- A name behind a word that starts an identifier. -/
theorem isIdentifier_behind {word name : String} (hword : isPlainWord word = true)
    (h : k.isIdentifier name = true) : k.isIdentifier (word ++ name) = true :=
  isIdentifier_append (isIdentifier_of_isPlainWord hword) fun _ hc => continues_of_mem h hc

theorem isIdentifier_push {name : String} (h : k.isIdentifier name = true) :
    k.isIdentifier (name.push '_') = true := by
  rw [← String.append_singleton]
  exact isIdentifier_append_plain h (by decide)

/-- A source name is exported as an identifier. -/
theorem Exports.identified (hk : k.Exports) {file raw name : String}
    (h : identified file raw = .ok name) : k.isIdentifier name = true :=
  hk raw name (identify_of_identified h)

end Classes

end Naming

open Naming (Classes)

variable {k : Classes}

/-- All that is made from an identifier is an identifier. -/
theorem GlobalRole.isIdentifier_identifier (role : GlobalRole) {name : String}
    (h : k.isIdentifier name = true) : k.isIdentifier (role.identifier name) = true := by
  cases role with
  | own => exact h
  | constructor | idTable => exact Classes.isIdentifier_behind (by decide) h
  | client | processor => exact Classes.isIdentifier_append_plain h (by decide)

/-- All names of the table are identifiers by the classes. -/
def NameTable.SpelledIn (k : Classes) (t : NameTable) : Prop :=
  ∀ name ∈ t.names, k.isIdentifier name = true

/-- All names of the table are identifiers. -/
def NameTable.Spelled (t : NameTable) : Prop :=
  ∀ name ∈ t.names, Naming.isIdentifier name = true

namespace NameTable

theorem spelledIn_xid {t : NameTable} : t.SpelledIn .xid ↔ t.Spelled := by
  simp only [SpelledIn, Spelled, Classes.isIdentifier_xid]

theorem spelled_empty : empty.SpelledIn k :=
  fun _ hname => absurd hname List.not_mem_nil

theorem SpelledIn.add {t : NameTable} (ht : t.SpelledIn k) {candidate : String}
    (h : k.isIdentifier candidate = true) (key : String) :
    k.isIdentifier (t.add candidate key).1 = true ∧ (t.add candidate key).2.SpelledIn k :=
  add_of (P := fun name => k.isIdentifier name = true)
    (fun _ => Classes.isIdentifier_push) ht h key

end NameTable

/-! ## Names inside a structure -/

/-- A number as part of a name has plain characters only, a negative one as well. -/
theorem Naming.isPlain_idSuffix (id : Int) : (idSuffix id).toList.all isPlain = true := by
  have hdigits : ∀ c ∈ (toString id.natAbs).toList, isPlain c = true := by
    rw [Nat.toString_eq_repr, Nat.toList_repr]
    intro c hc
    have hdigit := Nat.isDigit_of_mem_toDigits (by decide) (by decide) hc
    rw [isPlain, Char.isAlphanum, hdigit, Bool.or_true, Bool.true_or]
  rw [idSuffix, List.all_eq_true]
  split
  · rw [String.toList_append]
    exact List.forall_mem_append.mpr ⟨List.forall_mem_singleton.mpr rfl, hdigits⟩
  · exact hdigits

/-- What an accessor asks for is an identifier, whatever the number of its field. -/
theorem AccessorRole.isIdentifier_candidate (role : AccessorRole) {stem : String}
    (h : k.isIdentifier stem = true) (id : Int) :
    k.isIdentifier (role.candidate stem id) = true := by
  have hnumber := Naming.isPlain_idSuffix id
  have hword : ∀ word, Naming.isPlainWord word = true →
      k.isIdentifier (word ++ Naming.idSuffix id) = true := fun word hword =>
    Classes.isIdentifier_append_plain (Classes.isIdentifier_of_isPlainWord hword) hnumber
  cases role with
  | get | set | isSet => exact Classes.isIdentifier_behind (by decide) h
  | read | write => exact hword _ (by decide)
  | deepEqual => exact Classes.isIdentifier_append_plain (hword _ (by decide)) (by decide)

/-- What a field asks for is an identifier, whether it is declared or stands in place of
another. -/
theorem isIdentifier_stem (hk : k.Exports) {o : Options} {l : Library} {p : Place} {s : StructDecl}
    {slots : List (Slot FieldPlan)} (h : planSlots o l p s = .ok slots) :
    ∀ slot ∈ slots, ∀ f ∈ slot.all, k.isIdentifier f.stem = true := by
  refine forall_of_planSlots (fun f plan hplan => ?_) (fun home parent child plan hplan => ?_) h
  · obtain ⟨stem, hstem, hplan⟩ := bind_eq_ok.mp hplan
    rw [← pure_eq_ok.mp hplan]
    exact hk.identified hstem
  · rw [FieldDecl.childPlan] at hplan
    split at hplan
    · cases hplan
    · obtain ⟨stem, hstem, hplan⟩ := bind_eq_ok.mp hplan
      rw [← pure_eq_ok.mp hplan]
      exact hk.identified hstem

/-- A step that allocates names and keeps all of them identifiers. -/
def Allocate.Spells (k : Classes) {α : Type} (x : Allocate α) : Prop :=
  ∀ t : NameTable, t.SpelledIn k → (x.run t).2.SpelledIn k

namespace Allocate.Spells

variable {α β : Type}

protected theorem pure (a : α) : Spells k (pure a) :=
  fun _ ht => ht

protected theorem bind {x : Allocate α} {f : α → Allocate β} (hx : Spells k x)
    (hf : ∀ a, Spells k (f a)) : Spells k (x >>= f) :=
  fun t ht => hf _ _ (hx t ht)

protected theorem allocate {candidate : String} (h : k.isIdentifier candidate = true)
    (key : String) : Spells k (allocate candidate key) :=
  fun _ ht => (ht.add h key).2

protected theorem mapM {f : α → Allocate β} (as : List α) (h : ∀ a ∈ as, Spells k (f a)) :
    Spells k (as.mapM f) := by
  induction as with
  | nil => exact .pure []
  | cons a as ih =>
      rw [List.mapM_cons]
      exact .bind (h a List.mem_cons_self) fun b =>
        .bind (ih fun c hc => h c (List.mem_cons_of_mem _ hc)) fun bs => .pure (b :: bs)

end Allocate.Spells

namespace FieldPlan

variable {f : FieldPlan} (h : k.isIdentifier f.stem = true) (o : Options)
include h

theorem spells_accessors : (f.accessors o).Spells k :=
  .mapM _ fun role _ => .bind (.allocate (role.isIdentifier_candidate h _) _) fun _ => .pure _

theorem spells_named (accessors : List Accessor) : (f.named o accessors).Spells k :=
  .bind (.allocate h _) fun _ => .pure _

theorem spells_namedChild : (f.namedChild o).Spells k :=
  .bind (spells_accessors h o) fun accessors => spells_named h o accessors

end FieldPlan

theorem spells_nameSlot {s : Slot FieldPlan}
    (h : ∀ f ∈ s.all, k.isIdentifier f.stem = true) (o : Options)
    (accessors : List Accessor) : (nameSlot o s accessors).Spells k := by
  rw [nameSlot]
  refine .bind (FieldPlan.spells_named (h s.field List.mem_cons_self) o accessors)
    fun field => ?_
  cases hs : s.expanded with
  | none => exact .pure _
  | some plans =>
      refine .bind (.mapM plans fun f hf => FieldPlan.spells_namedChild (h f ?_) o)
        fun _ => .pure _
      refine List.mem_cons_of_mem _ ?_
      rwa [Slot.children, hs]

/-- Naming fields keeps all names of a structure identifiers, whichever names are taken. -/
theorem spells_nameSlots {slots : List (Slot FieldPlan)}
    (h : ∀ s ∈ slots, ∀ f ∈ s.all, k.isIdentifier f.stem = true) (o : Options) :
    (nameSlots o slots).Spells k := by
  rw [nameSlots]
  refine .bind (.mapM slots fun s hs => ?_) fun accessors => ?_
  · exact FieldPlan.spells_accessors (h s hs s.field List.mem_cons_self) o
  · exact .mapM _ fun s hs => spells_nameSlot (h s.1 (List.of_mem_zip hs).1) o s.2

theorem spelled_methodTable (o : Options) (kind : StructKind) (madeUp : Bool) :
    (methodTable (methodNames o kind madeUp)).SpelledIn k := by
  have hnames : (methodTable (methodNames o kind madeUp)).names = methodNames o kind madeUp := by
    simp [NameTable.names, methodTable, Function.comp_def]
  intro name hname
  rw [hnames] at hname
  have hall : ∀ m ∈ allMethods, Naming.isPlainWord m = true := by decide
  exact Classes.isIdentifier_of_isPlainWord
    (hall name ((methodNames_sublist o kind madeUp).subset hname))

/-! ## Every step of naming gives identifiers -/

/-- The names that a roster gives are identifiers: the global ones, those inside structures, and
those of functions. -/
structure Roster.Spelled (k : Classes) (r : Roster) : Prop where
  globals : r.globals.SpelledIn k
  members : ∀ st ∈ r.structures.all, st.members.SpelledIn k
  functions : ∀ v ∈ r.services, ∀ f ∈ v.namedFunctions, k.isIdentifier f.name = true

namespace Site

variable (w : Site)

/-- A step that keeps the names of the file identifiers. -/
abbrev Spells (k : Classes) {α : Type} (x : Install α) : Prop :=
  Ensures (Roster.Spelled k) x fun _ => Roster.Spelled k

/-- What is reserved is made from the name of a declaration. -/
theorem spells_reserveGlobal (role : GlobalRole) {name : String}
    (hname : k.isIdentifier name = true) (key : String) :
    Spells k (w.reserveGlobal (role.identifier name) key) := by
  rw [reserveGlobal]
  refine .bind_get fun r hr => ?_
  split
  · next globals hglobals =>
    refine .set fun _ => { hr with globals := ?_ }
    exact NameTable.reserve_of hr.globals (role.isIdentifier_identifier hname) hglobals
  · exact .throw

theorem spells_declare (source name : String) (kind : DeclKind) :
    Spells k (declare source name kind) :=
  .modify fun _ h => { h with }

theorem spells_report (ds : List Diagnostic) : Spells k (report ds) :=
  .modify fun _ h => { h with }

variable (hk : k.Exports)
include hk

theorem isIdentifier_globalCandidate {source : String} {madeUp : Bool} {name : String}
    (h : w.globalCandidate source madeUp = .ok name) : k.isIdentifier name = true := by
  obtain ⟨exported, hexported, h⟩ := bind_eq_ok.mp h
  have hid := hk.identified hexported
  rw [← pure_eq_ok.mp h]
  split
  · exact Classes.isIdentifier_push hid
  · exact hid

theorem spells_allocateGlobal (source : String) (madeUp : Bool) :
    Ensures (Roster.Spelled k) (w.allocateGlobal source madeUp) fun name r =>
      k.isIdentifier name = true ∧ r.Spelled k := by
  rw [allocateGlobal]
  refine .bind (.lift fun candidate r hcandidate hr =>
    (⟨isIdentifier_globalCandidate w hk hcandidate, hr⟩ :
      k.isIdentifier candidate = true ∧ r.Spelled k))
    fun candidate => .given fun hcandidate => ?_
  refine .bind_get fun r hr => ?_
  obtain ⟨hname, hglobals⟩ := hr.globals.add hcandidate source
  refine .bind (Q := fun _ => Roster.Spelled k) (.set fun _ => { hr with globals := hglobals })
    fun _ => .pure fun _ h => ⟨hname, h⟩

/-- The members of a structure are its methods, and what its fields ask for. -/
theorem spells_nameFields (s : StructDecl) (name : String) (kind : StructKind)
    (purpose : Purpose) :
    Ensures (Roster.Spelled k) (w.nameFields s name kind purpose) fun st r =>
      st.members.SpelledIn k ∧ r.Spelled k := by
  rw [nameFields]
  refine .bind (Q := fun plans r =>
    planSlots w.options w.library w.place s = .ok plans ∧ r.Spelled k)
    (.lift fun _ _ hplans hr => ⟨hplans, hr⟩) fun plans => ?_
  refine .given fun hplans => ?_
  have hmembers := spells_nameSlots (isIdentifier_stem hk hplans) w.options _
    (spelled_methodTable w.options kind (purpose != .declared))
  dsimp only
  cases takenId? plans with
  | some taken => exact .bind (Q := fun _ _ => False) .throw fun _ _ _ _ h _ => h.elim
  | none => exact .bind (spells_report _) fun _ => .pure fun _ hr => ⟨hmembers, hr⟩

theorem spells_listStructure (s : StructDecl) (name : String) (kind : StructKind)
    (purpose : Purpose) : Spells k (w.listStructure s name kind purpose) := by
  rw [listStructure]
  refine .bind (spells_report _) fun _ => ?_
  refine .bind (spells_nameFields w hk s name kind purpose) fun st => .given fun hst => ?_
  refine .bind (Q := fun _ => Roster.Spelled k) (.modify fun r hr => { hr with members := ?_ })
    fun _ => .pure fun _ h => h
  intro other hother
  rcases StructureLists.mem_all_push.mp hother with hother | rfl
  · exact hr.members other hother
  · exact hst

theorem spells_addStructure (s : StructDecl) (purpose : Purpose) :
    Spells k (w.addStructure s purpose) := by
  rw [addStructure_eq_bind]
  refine .bind (spells_allocateGlobal w hk _ _) fun name => .given fun hname => ?_
  refine .bind (spells_reserveGlobal w .constructor hname _) fun _ => ?_
  refine .bind (spells_reserveGlobal w .idTable hname _) fun _ => ?_
  split
  · exact .bind (spells_report _) fun _ => .pure fun _ h => h
  · next kind _ =>
    split
    · exact .bind (spells_declare _ _ _) fun _ => spells_listStructure w hk s name kind purpose
    · exact spells_listStructure w hk s name kind purpose

theorem spells_addFunction (service : ServiceDecl) (f : FunctionDecl) {name : String}
    (hname : k.isIdentifier name = true) :
    Ensures (Roster.Spelled k) (w.addFunction service f name) fun fn r =>
      k.isIdentifier fn.name = true ∧ r.Spelled k := by
  have hparams : ∀ args result, Ensures (Roster.Spelled k) (w.nameParams f name args result)
      fun fn r => k.isIdentifier fn.name = true ∧ r.Spelled k := by
    refine fun args result => (ensures_nameParams w f name args result).weaken fun fn r h => ?_
    obtain ⟨⟨-, rfl, -⟩, hr⟩ := h
    exact ⟨hname, hr⟩
  rw [addFunction_eq_bind]
  refine .bind (spells_addStructure w hk _ _) fun args => ?_
  split
  · exact .bind (Q := fun _ => Roster.Spelled k) (.pure fun _ h => h) (hparams args)
  · exact .bind (Q := fun _ => Roster.Spelled k) (.map (spells_addStructure w hk _ _))
      (hparams args)

/-- The names of functions come from a table of their own. -/
theorem spells_addFunctions (service : ServiceDecl) {names : NameTable} (hnames : names.SpelledIn k)
    (fs : List FunctionDecl) :
    Ensures (Roster.Spelled k) (w.addFunctions service names fs) fun fns r =>
      (∀ fn ∈ fns, k.isIdentifier fn.name = true) ∧ r.Spelled k := by
  induction fs generalizing names with
  | nil => exact .pure fun _ h => ⟨fun _ hfn => absurd hfn List.not_mem_nil, h⟩
  | cons f fs ih =>
      rw [addFunctions]
      refine .bind (Q := fun candidate r => k.isIdentifier candidate = true ∧ r.Spelled k)
        (.lift fun _ _ h hr => ⟨hk.identified h, hr⟩) fun candidate => ?_
      refine .given fun hcandidate => ?_
      obtain ⟨hname, hnames⟩ := hnames.add hcandidate f.name
      refine .bind (spells_addFunction w hk service f hname) fun first => .given fun hfirst => ?_
      refine .bind (ih hnames) fun rest => .pure fun r h => ?_
      exact ⟨List.forall_mem_cons.mpr ⟨hfirst, h.1⟩, h.2⟩

theorem spells_addService (s : ServiceDecl) : Spells k (w.addService s) := by
  rw [addService]
  refine .bind (spells_allocateGlobal w hk _ _) fun name => .given fun hname => ?_
  refine .bind (spells_declare _ _ _) fun _ => ?_
  refine .bind (spells_addFunctions w hk s NameTable.spelled_empty _) fun functions =>
    .given fun hfunctions => ?_
  refine .bind (spells_reserveGlobal w .client hname _) fun _ => ?_
  refine .bind (spells_reserveGlobal w .processor hname _) fun _ => ?_
  refine .modify fun r h => { h with functions := ?_ }
  exact List.forall_mem_append.mpr ⟨h.functions, List.forall_mem_singleton.mpr hfunctions⟩

theorem spells_addEnum (e : EnumDecl) : Spells k (w.addEnum e) := by
  rw [addEnum]
  refine .bind (spells_allocateGlobal w hk _ _) fun name => .given fun _ => ?_
  exact .bind (spells_declare _ _ _) fun _ => .modify fun _ h => { h with }

theorem spells_addTypedef (t : TypedefDecl) : Spells k (w.addTypedef t) := by
  rw [addTypedef]
  refine .bind (spells_allocateGlobal w hk _ _) fun name => .given fun hname => ?_
  have hrest : Spells k (do
      declare t.name name .typedef
      modify fun r => { r with typedefs := r.typedefs ++ [⟨t, name⟩] }) :=
    .bind (spells_declare _ _ _) fun _ => .modify fun _ h => { h with }
  split
  · exact .bind (spells_reserveGlobal w .constructor hname _) fun _ => hrest
  · exact hrest

theorem spells_addConstant (c : ConstantDecl) : Spells k (w.addConstant c) := by
  rw [addConstant]
  refine .bind (spells_allocateGlobal w hk _ _) fun name => .given fun _ => ?_
  exact .bind (spells_declare _ _ _) fun _ => .modify fun _ h => { h with }

theorem spells_install : Spells k w.install := by
  rw [install]
  refine .bind (.forM _ fun s _ => spells_addService w hk s) fun _ => ?_
  refine .bind (.forM _ fun s _ => .bind (spells_addStructure w hk s .declared) fun _ =>
    .pure fun _ h => h) fun _ => ?_
  refine .bind (.forM _ fun e _ => spells_addEnum w hk e) fun _ => ?_
  refine .bind (.forM _ fun t _ => spells_addTypedef w hk t) fun _ => ?_
  exact .forM _ fun c _ => spells_addConstant w hk c

omit hk in
theorem spelled_empty : Roster.empty.Spelled k :=
  ⟨NameTable.spelled_empty, fun _ h => absurd h List.not_mem_nil,
    fun _ h => absurd h List.not_mem_nil⟩

variable {w} {r : Roster} (h : w.roster = .ok r)
include h

/-- **The names of a finished roster are identifiers**, by any classes of characters that what is
exported keeps to. -/
theorem spelled_roster : r.Spelled k := by
  obtain ⟨⟨u, r'⟩, hrun, h⟩ := bind_eq_ok.mp h
  rw [← pure_eq_ok.mp h]
  exact spells_install w hk .empty u r' spelled_empty hrun

omit hk in
theorem isIdentifier_global {key name : String} (hentry : (key, name) ∈ r.globals.entries) :
    Naming.isIdentifier name = true := by
  have hname := (spelled_roster Classes.exports_xid h).globals name
    (List.mem_map_of_mem (f := Prod.snd) hentry)
  rwa [Classes.isIdentifier_xid] at hname

omit hk in
/-- The name of a declaration that a look-up finds is an identifier. -/
theorem isIdentifier_declared {source : String} {d : Declared}
    (hd : r.declared.get? source = some d) : Naming.isIdentifier d.name = true :=
  isIdentifier_global h ((accounts_roster h).declared source d hd)

end Site

/-! ## Every file of a run -/

section Runs

variable (o : Options) (requests : List Request) {file : String} {s : Scope}
  (hs : ((Run.new o).serveAll requests).library.scope? file = some s)
include hs

/-- By any classes that what is exported keeps to, all names of a file of a run are identifiers. -/
theorem names_spelledIn (hk : k.Exports) :
    s.globals.SpelledIn k ∧ (∀ st ∈ s.structures.all, st.members.SpelledIn k) ∧
      ∀ v ∈ s.services, ∀ f ∈ v.functions, k.isIdentifier f.name = true := by
  obtain ⟨t, m, link, -, -, hbuilt⟩ := (Run.sound_serveAll o requests).built file s hs
  obtain ⟨r, resolved, hcomes, hglobals, -, -, hservices⟩ := hbuilt.rostered
  have hspelled := Site.spelled_roster hk hcomes.named
  refine ⟨hglobals ▸ hspelled.globals, fun st hst => ?_, fun v hv f hf => ?_⟩
  · refine hspelled.members (st.map Field.toNamedField) ?_
    rw [← hcomes.map_structures, StructureLists.all_map]
    exact List.mem_map_of_mem hst
  · exact hspelled.functions _ (hservices v hv) _ (hbuilt.function_named hv hf)

/-- **Generated names are identifiers.** In every file that a run comes to, under any options,
the names in the table of globals, those in the table of members of every structure, made up or
declared, and those of all functions of services are identifiers. -/
theorem names_spelled :
    s.globals.Spelled ∧ (∀ st ∈ s.structures.all, st.members.Spelled) ∧
      ∀ v ∈ s.services, ∀ f ∈ v.functions, Naming.isIdentifier f.name = true := by
  obtain ⟨hglobals, hmembers, hfunctions⟩ := names_spelledIn o requests hs Classes.exports_xid
  refine ⟨NameTable.spelledIn_xid.mp hglobals, fun st hst => ?_, fun v hv f hf => ?_⟩
  · exact NameTable.spelledIn_xid.mp (hmembers st hst)
  · exact Classes.isIdentifier_xid f.name ▸ hfunctions v hv f hf

end Runs

namespace Sample

/-- A stall with a service whose names start with an umlaut, and with two fields below zero, one of
which is called like the accessor of the other. -/
def stall : Tree where
  document := { Document.empty "stall.thrift" with
    services := [⟨"äpfel", none, none, [⟨"öffne", false, true, .named "bool" .bool, [], [], []⟩],
      []⟩]
    structs := [⟨"struct", "ärger", [
      ⟨-2147483648, "maß", .default, .named "i32" .i32, none, []⟩,
      ⟨-1, "get_maß", .default, .named "i32" .i32, none, []⟩], [], none⟩] }
  includes := []

end Sample

set_option maxRecDepth 100000 in
/-- The names of the stall, among them one of the least number and one that had to give way. -/
theorem names_spelled_stall :
    ∃ s, ((Run.new {}).serveAll [.build Sample.stall]).library.scope? "stall.thrift" = some s ∧
      "NewÄrger" ∈ s.globals.names ∧ s.globals.Spelled ∧
      (∃ st ∈ s.structures.all, "ReadField_2147483648" ∈ st.members.names ∧
        "GetMaß_" ∈ st.members.names ∧ st.members.Spelled) ∧
      ∃ v ∈ s.services, ∃ f ∈ v.functions, f.name = "Öffne" ∧
        Naming.isIdentifier f.name = true := by
  have hfound : (((Run.new {}).serveAll [.build Sample.stall]).library.scope? "stall.thrift").any
      (fun s => decide ("NewÄrger" ∈ s.globals.names) &&
        (s.structures.all.any fun st => decide ("ReadField_2147483648" ∈ st.members.names) &&
          decide ("GetMaß_" ∈ st.members.names)) &&
        s.services.any fun v => v.functions.any fun f => f.name == "Öffne") = true := by
    decide +kernel
  obtain ⟨s, hs, hfound⟩ := (Option.any_eq_true _ _).mp hfound
  simp only [Bool.and_eq_true, List.any_eq_true, decide_eq_true_eq, beq_iff_eq] at hfound
  obtain ⟨⟨hglobal, st, hst, hnumber, hunderscore⟩, v, hv, f, hf, hname⟩ := hfound
  obtain ⟨hglobals, hmembers, hfunctions⟩ := names_spelled {} [.build Sample.stall] hs
  exact ⟨s, hs, hglobal, hglobals, ⟨st, hst, hnumber, hunderscore, hmembers st hst⟩,
    v, hv, f, hf, hname, hfunctions v hv f hf⟩

end IdlScope

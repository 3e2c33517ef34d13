import IdlScope.Proofs.Nesting
import IdlScope.Proofs.Records

/-!
# Numbers — what a tree asks of a JSON number

A tree holds integers and doubles. Its integers belong to signed types of 32 and of 64 bits, which
is what `sized` says of every one of them; and a tree is `doubleFree` if no double stands in any
default, in any constant, or in a list or map inside one of these, its includes taken along.

The encoding of such a tree is well-formed data (`wellFormed_encodeTree`): all its numbers are
integers.
-/

namespace IdlScope

open Json (Value)

/-! ## Constant values -/

namespace ConstValue

mutual

/-- Do all values at the leaves pass, in lists and maps at any depth? -/
def every (leaf : ConstValue → Bool) : ConstValue → Bool
  | .list items => everyItem leaf items
  | .map entries => everyEntry leaf entries
  | v => leaf v
termination_by structural v => v

def everyItem (leaf : ConstValue → Bool) : List ConstValue → Bool
  | [] => true
  | v :: vs => every leaf v && everyItem leaf vs
termination_by structural vs => vs

def everyEntry (leaf : ConstValue → Bool) : List (ConstValue × ConstValue) → Bool
  | [] => true
  | e :: es => everyPart leaf e && everyEntry leaf es
termination_by structural es => es

/-- Both the key and the value of an entry. -/
def everyPart (leaf : ConstValue → Bool) : ConstValue × ConstValue → Bool
  | (k, v) => every leaf k && every leaf v
termination_by structural e => e

end

variable (leaf : ConstValue → Bool)

theorem every_list (items : List ConstValue) :
    every leaf (.list items) = items.all (every leaf) := by
  show everyItem leaf items = _
  induction items with
  | nil => rfl
  | cons v vs ih => rw [everyItem, List.all_cons, ih]

theorem every_map (entries : List (ConstValue × ConstValue)) :
    every leaf (.map entries) = entries.all fun e => every leaf e.1 && every leaf e.2 := by
  show everyEntry leaf entries = _
  induction entries with
  | nil => rfl
  | cons e es ih =>
      obtain ⟨k, v⟩ := e
      rw [everyEntry, List.all_cons, ih]
      rfl

/-- Is every integer in the value one of 64 bits? -/
def sized : ConstValue → Bool :=
  every fun
    | .int i => Interchange.inBits 64 i
    | _ => true

/-- Is no double in the value? -/
def doubleFree : ConstValue → Bool :=
  every fun
    | .double _ => false
    | _ => true

end ConstValue

/-! ## Integers -/

/-- Positions count in 32 bits. -/
def Reference.sized (r : Reference) : Bool :=
  Interchange.inBits 32 r.index

namespace IdlType

mutual

/-- Are the positions in all references of the type and of its element types in size? -/
def sized : IdlType → Bool
  | ⟨_, _, key, value, reference, _⟩ =>
    elementSized key && elementSized value && reference.all Reference.sized
termination_by structural t => t

def elementSized : Option IdlType → Bool
  | none => true
  | some t => sized t
termination_by structural t => t

end

theorem elementSized_eq (o : Option IdlType) : elementSized o = o.all sized := by
  cases o <;> rfl

end IdlType

/-- Identifiers of fields have 32 bits. -/
def FieldDecl.sized (f : FieldDecl) : Bool :=
  Interchange.inBits 32 f.id && f.type.sized && f.initial.all ConstValue.sized

def StructDecl.sized (s : StructDecl) : Bool :=
  s.fields.all FieldDecl.sized

/-- Numbers of enum values have 64 bits. -/
def EnumValueDecl.sized (v : EnumValueDecl) : Bool :=
  Interchange.inBits 64 v.value

def EnumDecl.sized (e : EnumDecl) : Bool :=
  e.values.all EnumValueDecl.sized

def TypedefDecl.sized (t : TypedefDecl) : Bool :=
  t.target.sized

def ConstantDecl.sized (c : ConstantDecl) : Bool :=
  c.type.sized && c.value.sized

def FunctionDecl.sized (f : FunctionDecl) : Bool :=
  f.result.sized && f.arguments.all FieldDecl.sized && f.throws.all FieldDecl.sized

def ServiceDecl.sized (s : ServiceDecl) : Bool :=
  s.baseReference.all Reference.sized && s.functions.all FunctionDecl.sized

def Document.sized (d : Document) : Bool :=
  d.typedefs.all TypedefDecl.sized && d.constants.all ConstantDecl.sized &&
    d.enums.all EnumDecl.sized && d.structs.all StructDecl.sized &&
    d.unions.all StructDecl.sized && d.exceptions.all StructDecl.sized &&
    d.services.all ServiceDecl.sized

/-! ## Doubles -/

def FieldDecl.doubleFree (f : FieldDecl) : Bool :=
  f.initial.all ConstValue.doubleFree

def StructDecl.doubleFree (s : StructDecl) : Bool :=
  s.fields.all FieldDecl.doubleFree

def ConstantDecl.doubleFree (c : ConstantDecl) : Bool :=
  c.value.doubleFree

def FunctionDecl.doubleFree (f : FunctionDecl) : Bool :=
  f.arguments.all FieldDecl.doubleFree && f.throws.all FieldDecl.doubleFree

def ServiceDecl.doubleFree (s : ServiceDecl) : Bool :=
  s.functions.all FunctionDecl.doubleFree

def Document.doubleFree (d : Document) : Bool :=
  d.constants.all ConstantDecl.doubleFree && d.structs.all StructDecl.doubleFree &&
    d.unions.all StructDecl.doubleFree && d.exceptions.all StructDecl.doubleFree &&
    d.services.all ServiceDecl.doubleFree

/-! ## Trees -/

namespace Tree

mutual

/-- Does what the files of a tree say themselves pass, with all their includes? -/
def every (file : Document → Bool) : Tree → Bool
  | ⟨d, is⟩ => file d && everyInclude file is
termination_by structural t => t

def everyInclude (file : Document → Bool) : List (Included Tree) → Bool
  | [] => true
  | i :: is => everyContent file i && everyInclude file is
termination_by structural is => is

def everyContent (file : Document → Bool) : Included Tree → Bool
  | ⟨_, _, t⟩ => every file t
termination_by structural i => i

end

theorem every_eq (file : Document → Bool) (d : Document) (is : List (Included Tree)) :
    every file ⟨d, is⟩ = (file d && is.all fun i => every file i.content) := by
  have hall : everyInclude file is = is.all fun i => every file i.content := by
    induction is with
    | nil => rfl
    | cons i is ih =>
        obtain ⟨path, used, t⟩ := i
        rw [everyInclude, List.all_cons, ih]
        rfl
  rw [every, hall]

/-- Are all integers of the tree in size? -/
def sized : Tree → Bool := every Document.sized

/-- Is no double in the tree? -/
def doubleFree : Tree → Bool := every Document.doubleFree

end Tree

/-! ## Encodings are well-formed -/

namespace Interchange

open Json.Value (WellFormed)

theorem wellFormed_nil : ∀ m ∈ ([] : List (String × Value)), m.2.WellFormed :=
  fun _ h => absurd h List.not_mem_nil

theorem wellFormed_encodeTexts (ss : List String) : (encodeTexts ss).WellFormed :=
  .map fun s _ => .text s

theorem wellFormed_encodeAnnotations (as : Annotations) : (encodeAnnotations as).WellFormed := by
  refine .map fun a _ => .ofMembers ?_
  simp only [List.forall_mem_cons]
  exact ⟨.text _, wellFormed_encodeTexts _, wellFormed_nil⟩

theorem wellFormed_encodeReference (r : Reference) : (encodeReference r).WellFormed := by
  refine .ofMembers ?_
  simp only [List.forall_mem_cons]
  exact ⟨.ofInt _, .text _, wellFormed_nil⟩

theorem wellFormed_encodeElement {o : Option IdlType} (h : ∀ t ∈ o, (encodeType t).WellFormed) :
    (encodeElement o).WellFormed := by
  cases o with
  | none => exact .null
  | some t => exact h t rfl

theorem wellFormed_encodeType (t : IdlType) : (encodeType t).WellFormed := by
  induction t using IdlType.induct with
  | step name category key value reference annotations ihkey ihvalue =>
      rw [encodeType]
      refine .ofMembers ?_
      simp only [List.forall_mem_cons]
      exact ⟨.text _, .text _, wellFormed_encodeElement ihkey, wellFormed_encodeElement ihvalue,
        wellFormed_encodeOption fun r _ => wellFormed_encodeReference r,
        wellFormed_encodeAnnotations _, wellFormed_nil⟩

theorem encodeConsts_eq (items : List ConstValue) : encodeConsts items = items.map encodeConst := by
  induction items with
  | nil => rfl
  | cons v vs ih => rw [encodeConsts, List.map_cons, ih]

theorem encodeEntries_eq (entries : List (ConstValue × ConstValue)) :
    encodeEntries entries = entries.map encodeEntry := by
  induction entries with
  | nil => rfl
  | cons e es ih => rw [encodeEntries, List.map_cons, ih]

/-- An object with one member. -/
theorem wellFormed_tagged {key : String} {v : Value} (h : v.WellFormed) :
    (Value.ofMembers [(key, v)]).WellFormed := by
  refine .ofMembers ?_
  intro m hm
  rw [List.mem_singleton.mp hm]
  exact h

theorem wellFormed_encodeConst {v : ConstValue} (h : v.doubleFree = true) :
    (encodeConst v).WellFormed := by
  induction v using ConstValue.induct with
  | int i => exact wellFormed_tagged (.ofInt i)
  | double x => cases h
  | literal s => exact wellFormed_tagged (.text s)
  | identifier s => exact wellFormed_tagged (.text s)
  | list items ih =>
      rw [ConstValue.doubleFree, ConstValue.every_list, List.all_eq_true] at h
      rw [encodeConst, encodeConsts_eq]
      exact wellFormed_tagged (.map fun v hv => ih v hv (h v hv))
  | map entries ih =>
      rw [ConstValue.doubleFree, ConstValue.every_map, List.all_eq_true] at h
      rw [encodeConst, encodeEntries_eq]
      refine wellFormed_tagged (.map ?_)
      rintro ⟨k, v⟩ he
      obtain ⟨hk, hv⟩ := Bool.and_eq_true_iff.mp (h _ he)
      rw [encodeEntry]
      refine .array ?_
      intro w hw
      rcases List.mem_cons.mp hw with rfl | hw
      · exact (ih _ he).1 hk
      · exact List.mem_singleton.mp hw ▸ (ih _ he).2 hv

theorem wellFormed_encodeField {f : FieldDecl} (h : f.doubleFree = true) :
    (encodeField f).WellFormed := by
  rw [FieldDecl.doubleFree, Option.all_eq_true] at h
  refine .ofMembers ?_
  simp only [List.forall_mem_cons]
  exact ⟨.ofInt _, .text _, .text _, wellFormed_encodeType _,
    wellFormed_encodeOption fun v hv => wellFormed_encodeConst (h v hv),
    wellFormed_encodeAnnotations _, wellFormed_nil⟩

/-- A list of fields, as structures and functions hold them. -/
theorem wellFormed_fields {fs : List FieldDecl} (h : fs.all FieldDecl.doubleFree = true) :
    (Value.array (fs.map encodeField)).WellFormed :=
  .map fun f hf => wellFormed_encodeField (List.all_eq_true.mp h f hf)

theorem wellFormed_encodeStruct {s : StructDecl} (h : s.doubleFree = true) :
    (encodeStruct s).WellFormed := by
  refine .ofMembers ?_
  simp only [List.forall_mem_cons]
  exact ⟨.text _, .text _, wellFormed_fields h, wellFormed_encodeAnnotations _,
    wellFormed_encodeOption fun b _ => .bool b, wellFormed_nil⟩

theorem wellFormed_encodeEnumValue (v : EnumValueDecl) : (encodeEnumValue v).WellFormed := by
  refine .ofMembers ?_
  simp only [List.forall_mem_cons]
  exact ⟨.text _, .ofInt _, wellFormed_encodeAnnotations _, wellFormed_nil⟩

theorem wellFormed_encodeEnum (e : EnumDecl) : (encodeEnum e).WellFormed := by
  refine .ofMembers ?_
  simp only [List.forall_mem_cons]
  exact ⟨.text _, .map fun v _ => wellFormed_encodeEnumValue v, wellFormed_encodeAnnotations _,
    wellFormed_nil⟩

theorem wellFormed_encodeTypedef (t : TypedefDecl) : (encodeTypedef t).WellFormed := by
  refine .ofMembers ?_
  simp only [List.forall_mem_cons]
  exact ⟨.text _, wellFormed_encodeType _, wellFormed_encodeAnnotations _, wellFormed_nil⟩

theorem wellFormed_encodeConstant {c : ConstantDecl} (h : c.doubleFree = true) :
    (encodeConstant c).WellFormed := by
  refine .ofMembers ?_
  simp only [List.forall_mem_cons]
  exact ⟨.text _, wellFormed_encodeType _, wellFormed_encodeConst h, wellFormed_nil⟩

theorem wellFormed_encodeFunction {f : FunctionDecl} (h : f.doubleFree = true) :
    (encodeFunction f).WellFormed := by
  obtain ⟨harguments, hthrows⟩ := Bool.and_eq_true_iff.mp h
  refine .ofMembers ?_
  simp only [List.forall_mem_cons]
  exact ⟨.text _, .bool _, .bool _, wellFormed_encodeType _, wellFormed_fields harguments,
    wellFormed_fields hthrows, wellFormed_encodeAnnotations _, wellFormed_nil⟩

theorem wellFormed_encodeService {s : ServiceDecl} (h : s.doubleFree = true) :
    (encodeService s).WellFormed := by
  rw [ServiceDecl.doubleFree, List.all_eq_true] at h
  refine .ofMembers ?_
  simp only [List.forall_mem_cons]
  exact ⟨.text _, wellFormed_encodeOption fun s _ => .text s,
    wellFormed_encodeOption fun r _ => wellFormed_encodeReference r,
    .map fun f hf => wellFormed_encodeFunction (h f hf), wellFormed_encodeAnnotations _,
    wellFormed_nil⟩

theorem wellFormed_encodeNamespace (n : NamespaceDecl) : (encodeNamespace n).WellFormed := by
  refine .ofMembers ?_
  simp only [List.forall_mem_cons]
  exact ⟨.text _, .text _, wellFormed_nil⟩

theorem encodeIncludes_eq (is : List (Included Tree)) :
    encodeIncludes is = is.map encodeInclude := by
  induction is with
  | nil => rfl
  | cons i is ih => rw [encodeIncludes, List.map_cons, ih]

/-- A tree without doubles is encoded as data that a text can write. -/
theorem wellFormed_encodeTree {t : Tree} (h : t.doubleFree = true) :
    (encodeTree t).WellFormed := by
  induction t using Tree.induct with
  | step d is ih =>
      rw [Tree.doubleFree, Tree.every_eq, Bool.and_eq_true, List.all_eq_true] at h
      obtain ⟨hd, his⟩ := h
      simp only [Document.doubleFree, Bool.and_eq_true, List.all_eq_true] at hd
      obtain ⟨⟨⟨⟨hconstants, hstructs⟩, hunions⟩, hexceptions⟩, hservices⟩ := hd
      have hincludes : (Value.array (is.map encodeInclude)).WellFormed := by
        refine .map ?_
        rintro ⟨path, used, t⟩ hi
        rw [encodeInclude]
        refine .ofMembers ?_
        simp only [List.forall_mem_cons]
        exact ⟨.text _, .bool _, ih _ hi (his _ hi), wellFormed_nil⟩
      rw [encodeTree, encodeIncludes_eq]
      refine .ofMembers ?_
      simp only [List.forall_mem_cons]
      exact ⟨.text _, hincludes, .map fun n _ => wellFormed_encodeNamespace n,
        .map fun t _ => wellFormed_encodeTypedef t,
        .map fun c hc => wellFormed_encodeConstant (hconstants c hc),
        .map fun e _ => wellFormed_encodeEnum e,
        .map fun s hs => wellFormed_encodeStruct (hstructs s hs),
        .map fun s hs => wellFormed_encodeStruct (hunions s hs),
        .map fun s hs => wellFormed_encodeStruct (hexceptions s hs),
        .map fun s hs => wellFormed_encodeService (hservices s hs), wellFormed_nil⟩

end Interchange

end IdlScope

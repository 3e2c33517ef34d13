import IdlScope.Proofs.Numbers

/-!
# Encodings — a declaration is read back from its encoding

Each reader of a declaration undoes the encoding of that declaration. The proofs follow the readers
member by member, and the levels that are left are those that the encoding opens.

* **`undoes_type`**, **`undoes_const`** — types and constant values come back at any depth, if their
  integers are in size and the values hold no double.
* **`undoes_tree`** — so does a tree with all its includes.
-/

namespace IdlScope.Interchange

open Json (Value)

/-! ## Types and constants -/

/-- One entry of an annotation list, as the list writes it. -/
def encodeAnnotation (a : AnnotationEntry) : Value :=
  .ofMembers [("key", .ofString a.key), ("values", encodeTexts a.values)]

theorem undoes_entry (a : AnnotationEntry) : Undoes readEntry encodeAnnotation a := by
  intro level hlevel
  obtain ⟨level, rfl, hin⟩ := Value.exists_level_of_members hlevel
  rw [readEntry]
  refine bind_eq (openRecord_ofMembers rfl (by decide)) ?_
  refine bind_eq (required_eq hin (undoes_text _) rfl) ?_
  refine bind_eq (required_eq hin (undoes_list fun s _ => undoes_text s) rfl) ?_
  rfl

theorem annotationsOf_eq {ms : Members} {level : Nat} (hin : ∀ m ∈ ms, m.2.levels ≤ level)
    {as : Annotations} (has : ms.lookup "annotations" = some (encodeAnnotations as)) :
    annotationsOf ms level = some as :=
  listOf_eq hin (fun a _ => undoes_entry a) has

theorem undoes_reference {r : Reference} (h : r.sized = true) :
    Undoes readReference encodeReference r := by
  intro level hlevel
  obtain ⟨level, rfl, hin⟩ := Value.exists_level_of_members hlevel
  rw [readReference]
  refine bind_eq (openRecord_ofMembers rfl (by decide)) ?_
  refine bind_eq (required_eq hin (undoes_int h) rfl) ?_
  refine bind_eq (required_eq hin (undoes_text _) rfl) ?_
  rfl

/-- The element type in a member of a type, if the member is there and not `null`. -/
def readElement (level : Nat) : Option Value → Option (Option IdlType)
  | none | some .null => some none
  | some v => (readType level v).map some

/-- An element type comes back if it is a type that comes back. -/
theorem readElement_encodeElement {level : Nat} {o : Option IdlType}
    (h : ∀ t ∈ o, Undoes readType encodeType t) (hlevel : (encodeElement o).levels ≤ level) :
    readElement level (some (encodeElement o)) = some o := by
  cases o with
  | none => rfl
  | some t =>
      have hread : readType level (encodeElement (some t)) = some t := h t rfl level hlevel
      obtain ⟨ms, hms⟩ : ∃ ms, encodeElement (some t) = .ofMembers ms := by
        obtain ⟨_⟩ := t
        exact ⟨_, by rw [encodeElement, encodeType]⟩
      rw [hms] at hread ⊢
      show (readType level (.ofMembers ms)).map some = _
      rw [hread]
      rfl

theorem undoes_type {t : IdlType} (h : t.sized = true) : Undoes readType encodeType t := by
  induction t using IdlType.induct with
  | step name category key value reference annotations ihkey ihvalue =>
      rw [IdlType.sized, IdlType.elementSized_eq, IdlType.elementSized_eq] at h
      simp only [Bool.and_eq_true, Option.all_eq_true] at h
      obtain ⟨⟨hkey, hvalue⟩, hreference⟩ := h
      intro level hlevel
      rw [encodeType] at hlevel ⊢
      obtain ⟨level, rfl, hin⟩ := Value.exists_level_of_members hlevel
      rw [readType]
      refine bind_eq (openRecord_ofMembers rfl (by decide)) ?_
      refine bind_eq (required_eq hin (undoes_text _) rfl) ?_
      refine bind_eq (required_eq hin
        (undoes_spelling Category.spelling (Category.ofSpelling?_spelling category)) rfl) ?_
      refine bind_eq (readElement_encodeElement (fun t ht => ihkey t ht (hkey t ht))
        (levels_le_of_lookup "key_type" hin rfl)) ?_
      refine bind_eq (readElement_encodeElement (fun t ht => ihvalue t ht (hvalue t ht))
        (levels_le_of_lookup "value_type" hin rfl)) ?_
      refine bind_eq (optional_eq hin (fun r hr => undoes_reference (hreference r hr))
        (fun r => ofMembers_ne_null _) rfl) ?_
      refine bind_eq (annotationsOf_eq hin rfl) ?_
      rfl

/-- A constant value is no `null`. -/
theorem encodeConst_ne_null (v : ConstValue) : encodeConst v ≠ .null := by
  intro h
  cases v <;> cases h

theorem undoes_const {v : ConstValue} (hsized : v.sized = true) (hfree : v.doubleFree = true) :
    Undoes readConst encodeConst v := by
  induction v using ConstValue.induct with
  | int i =>
      intro level hlevel
      rw [encodeConst] at hlevel ⊢
      obtain ⟨level, rfl, -⟩ := Value.exists_level_of_members hlevel
      show (readInt 64 level (.ofInt i)).map ConstValue.int = _
      rw [undoes_int hsized level (Nat.zero_le _)]
      rfl
  | double x => cases hfree
  | literal s =>
      intro level hlevel
      rw [encodeConst] at hlevel ⊢
      obtain ⟨level, rfl, -⟩ := Value.exists_level_of_members hlevel
      rfl
  | identifier s =>
      intro level hlevel
      rw [encodeConst] at hlevel ⊢
      obtain ⟨level, rfl, -⟩ := Value.exists_level_of_members hlevel
      rfl
  | list items ih =>
      rw [ConstValue.sized, ConstValue.every_list, List.all_eq_true] at hsized
      rw [ConstValue.doubleFree, ConstValue.every_list, List.all_eq_true] at hfree
      intro level hlevel
      rw [encodeConst, encodeConsts_eq] at hlevel ⊢
      obtain ⟨level, rfl, hin⟩ := Value.exists_level_of_members hlevel
      obtain ⟨level, rfl, hitems⟩ := Value.exists_level_of_array (hin _ List.mem_cons_self)
      show ((items.map encodeConst).mapM (readConst level)).map ConstValue.list = _
      rw [mapM_undoes fun v hv => ih v hv (hsized v hv) (hfree v hv) level
        (hitems _ (List.mem_map_of_mem hv))]
      rfl
  | map entries ih =>
      rw [ConstValue.sized, ConstValue.every_map, List.all_eq_true] at hsized
      rw [ConstValue.doubleFree, ConstValue.every_map, List.all_eq_true] at hfree
      intro level hlevel
      rw [encodeConst, encodeEntries_eq] at hlevel ⊢
      obtain ⟨level, rfl, hin⟩ := Value.exists_level_of_members hlevel
      obtain ⟨level, rfl, hentries⟩ := Value.exists_level_of_array (hin _ List.mem_cons_self)
      cases level with
      | zero =>
          -- no level is left for an entry, so there is none
          cases entries with
          | nil => rfl
          | cons e es =>
              obtain ⟨k, v⟩ := e
              obtain ⟨_, hnone, -⟩ := Value.exists_level_of_array (hentries _ List.mem_cons_self)
              cases hnone
      | succ level =>
          show Option.map ConstValue.map (List.mapM _ (entries.map encodeEntry)) = _
          rw [mapM_undoes]
          · rfl
          · rintro ⟨k, v⟩ he
            obtain ⟨hk, hv⟩ := Bool.and_eq_true_iff.mp (hsized _ he)
            obtain ⟨hk', hv'⟩ := Bool.and_eq_true_iff.mp (hfree _ he)
            have hlevels := hentries _ (List.mem_map_of_mem he)
            rw [encodeEntry] at hlevels ⊢
            obtain ⟨_, hinner, hparts⟩ := Value.exists_level_of_array hlevels
            cases hinner
            refine bind_eq ((ih _ he).1 hk hk' level (hparts _ List.mem_cons_self)) ?_
            refine bind_eq ((ih _ he).2 hv hv' level
              (hparts _ (List.mem_cons_of_mem _ List.mem_cons_self))) ?_
            rfl

/-! ## Declarations -/

theorem undoes_field {f : FieldDecl} (hsized : f.sized = true) (hfree : f.doubleFree = true) :
    Undoes readField encodeField f := by
  simp only [FieldDecl.sized, Bool.and_eq_true, Option.all_eq_true] at hsized
  rw [FieldDecl.doubleFree, Option.all_eq_true] at hfree
  obtain ⟨⟨hid, htype⟩, hinitial⟩ := hsized
  intro level hlevel
  obtain ⟨level, rfl, hin⟩ := Value.exists_level_of_members hlevel
  rw [readField]
  refine bind_eq (openRecord_ofMembers rfl (by decide)) ?_
  refine bind_eq (required_eq hin (undoes_int hid) rfl) ?_
  refine bind_eq (required_eq hin (undoes_text _) rfl) ?_
  refine bind_eq (withDefault_eq hin
    (undoes_spelling Requiredness.spelling (Requiredness.ofSpelling?_spelling _)) rfl) ?_
  refine bind_eq (required_eq hin (undoes_type htype) rfl) ?_
  refine bind_eq (optional_eq hin (fun v hv => undoes_const (hinitial v hv) (hfree v hv))
    encodeConst_ne_null rfl) ?_
  refine bind_eq (annotationsOf_eq hin rfl) ?_
  rfl

/-- The fields of a structure, the arguments of a function and what it throws. -/
theorem undoes_fields {fs : List FieldDecl} (hsized : fs.all FieldDecl.sized = true)
    (hfree : fs.all FieldDecl.doubleFree = true) : ∀ f ∈ fs, Undoes readField encodeField f :=
  fun f hf => undoes_field (List.all_eq_true.mp hsized f hf) (List.all_eq_true.mp hfree f hf)

theorem undoes_struct {s : StructDecl} (hsized : s.sized = true) (hfree : s.doubleFree = true) :
    Undoes readStruct encodeStruct s := by
  intro level hlevel
  obtain ⟨level, rfl, hin⟩ := Value.exists_level_of_members hlevel
  rw [readStruct]
  refine bind_eq (openRecord_ofMembers rfl (by decide)) ?_
  refine bind_eq (required_eq hin (undoes_text _) rfl) ?_
  refine bind_eq (required_eq hin (undoes_text _) rfl) ?_
  refine bind_eq (listOf_eq hin (undoes_fields hsized hfree) rfl) ?_
  refine bind_eq (annotationsOf_eq hin rfl) ?_
  refine bind_eq (optional_eq hin (fun b _ => undoes_bool b) bool_ne_null rfl) ?_
  rfl

theorem undoes_structs {ss : List StructDecl} (hsized : ss.all StructDecl.sized = true)
    (hfree : ss.all StructDecl.doubleFree = true) : ∀ s ∈ ss, Undoes readStruct encodeStruct s :=
  fun s hs => undoes_struct (List.all_eq_true.mp hsized s hs) (List.all_eq_true.mp hfree s hs)

theorem undoes_enumValue {v : EnumValueDecl} (h : v.sized = true) :
    Undoes readEnumValue encodeEnumValue v := by
  intro level hlevel
  obtain ⟨level, rfl, hin⟩ := Value.exists_level_of_members hlevel
  rw [readEnumValue]
  refine bind_eq (openRecord_ofMembers rfl (by decide)) ?_
  refine bind_eq (required_eq hin (undoes_text _) rfl) ?_
  refine bind_eq (required_eq hin (undoes_int h) rfl) ?_
  refine bind_eq (annotationsOf_eq hin rfl) ?_
  rfl

theorem undoes_enum {e : EnumDecl} (h : e.sized = true) : Undoes readEnum encodeEnum e := by
  rw [EnumDecl.sized, List.all_eq_true] at h
  intro level hlevel
  obtain ⟨level, rfl, hin⟩ := Value.exists_level_of_members hlevel
  rw [readEnum]
  refine bind_eq (openRecord_ofMembers rfl (by decide)) ?_
  refine bind_eq (required_eq hin (undoes_text _) rfl) ?_
  refine bind_eq (required_eq hin (undoes_list fun v hv => undoes_enumValue (h v hv)) rfl) ?_
  refine bind_eq (annotationsOf_eq hin rfl) ?_
  rfl

theorem undoes_typedef {t : TypedefDecl} (h : t.sized = true) :
    Undoes readTypedef encodeTypedef t := by
  intro level hlevel
  obtain ⟨level, rfl, hin⟩ := Value.exists_level_of_members hlevel
  rw [readTypedef]
  refine bind_eq (openRecord_ofMembers rfl (by decide)) ?_
  refine bind_eq (required_eq hin (undoes_text _) rfl) ?_
  refine bind_eq (required_eq hin (undoes_type h) rfl) ?_
  refine bind_eq (annotationsOf_eq hin rfl) ?_
  rfl

theorem undoes_constant {c : ConstantDecl} (hsized : c.sized = true) (hfree : c.doubleFree = true) :
    Undoes readConstant encodeConstant c := by
  obtain ⟨htype, hvalue⟩ := Bool.and_eq_true_iff.mp hsized
  intro level hlevel
  obtain ⟨level, rfl, hin⟩ := Value.exists_level_of_members hlevel
  rw [readConstant]
  refine bind_eq (openRecord_ofMembers rfl (by decide)) ?_
  refine bind_eq (required_eq hin (undoes_text _) rfl) ?_
  refine bind_eq (required_eq hin (undoes_type htype) rfl) ?_
  refine bind_eq (required_eq hin (undoes_const hvalue hfree) rfl) ?_
  rfl

theorem undoes_function {f : FunctionDecl} (hsized : f.sized = true) (hfree : f.doubleFree = true) :
    Undoes readFunction encodeFunction f := by
  simp only [FunctionDecl.sized, Bool.and_eq_true] at hsized
  obtain ⟨⟨hresult, harguments⟩, hthrows⟩ := hsized
  obtain ⟨harguments', hthrows'⟩ := Bool.and_eq_true_iff.mp hfree
  intro level hlevel
  obtain ⟨level, rfl, hin⟩ := Value.exists_level_of_members hlevel
  rw [readFunction]
  refine bind_eq (openRecord_ofMembers rfl (by decide)) ?_
  refine bind_eq (required_eq hin (undoes_text _) rfl) ?_
  refine bind_eq (withDefault_eq hin (undoes_bool _) rfl) ?_
  refine bind_eq (withDefault_eq hin (undoes_bool _) rfl) ?_
  refine bind_eq (required_eq hin (undoes_type hresult) rfl) ?_
  refine bind_eq (listOf_eq hin (undoes_fields harguments harguments') rfl) ?_
  refine bind_eq (listOf_eq hin (undoes_fields hthrows hthrows') rfl) ?_
  refine bind_eq (annotationsOf_eq hin rfl) ?_
  rfl

theorem undoes_service {s : ServiceDecl} (hsized : s.sized = true) (hfree : s.doubleFree = true) :
    Undoes readService encodeService s := by
  simp only [ServiceDecl.sized, Bool.and_eq_true, Option.all_eq_true, List.all_eq_true] at hsized
  rw [ServiceDecl.doubleFree, List.all_eq_true] at hfree
  obtain ⟨hreference, hfunctions⟩ := hsized
  intro level hlevel
  obtain ⟨level, rfl, hin⟩ := Value.exists_level_of_members hlevel
  rw [readService]
  refine bind_eq (openRecord_ofMembers rfl (by decide)) ?_
  refine bind_eq (required_eq hin (undoes_text _) rfl) ?_
  refine bind_eq (optional_eq hin (fun s _ => undoes_text s) ofString_ne_null rfl) ?_
  refine bind_eq (optional_eq hin (fun r hr => undoes_reference (hreference r hr))
    (fun r => ofMembers_ne_null _) rfl) ?_
  refine bind_eq (listOf_eq hin
    (fun f hf => undoes_function (hfunctions f hf) (hfree f hf)) rfl) ?_
  refine bind_eq (annotationsOf_eq hin rfl) ?_
  rfl

theorem undoes_namespace (n : NamespaceDecl) : Undoes readNamespace encodeNamespace n := by
  intro level hlevel
  obtain ⟨level, rfl, hin⟩ := Value.exists_level_of_members hlevel
  rw [readNamespace]
  refine bind_eq (openRecord_ofMembers rfl (by decide)) ?_
  refine bind_eq (required_eq hin (undoes_text _) rfl) ?_
  refine bind_eq (required_eq hin (undoes_text _) rfl) ?_
  rfl

/-! ## Trees -/

/-- The members that a tree is encoded as. -/
def encodedMembers (d : Document) (is : List (Included Tree)) : Members := [
  ("filename", .ofString d.filename),
  ("includes", .array (is.map encodeInclude)),
  ("namespaces", .array (d.namespaces.map encodeNamespace)),
  ("typedefs", .array (d.typedefs.map encodeTypedef)),
  ("constants", .array (d.constants.map encodeConstant)),
  ("enums", .array (d.enums.map encodeEnum)),
  ("structs", .array (d.structs.map encodeStruct)),
  ("unions", .array (d.unions.map encodeStruct)),
  ("exceptions", .array (d.exceptions.map encodeStruct)),
  ("services", .array (d.services.map encodeService))]

theorem encodeTree_eq (d : Document) (is : List (Included Tree)) :
    encodeTree ⟨d, is⟩ = .ofMembers (encodedMembers d is) := by
  rw [encodeTree, encodeIncludes_eq]
  rfl

theorem readDocument_eq {d : Document} {is : List (Included Tree)} {level : Nat}
    (hin : ∀ m ∈ encodedMembers d is, m.2.levels ≤ level) (hsized : d.sized = true)
    (hfree : d.doubleFree = true) : readDocument (encodedMembers d is) level = some d := by
  simp only [Document.sized, Bool.and_eq_true] at hsized
  simp only [Document.doubleFree, Bool.and_eq_true] at hfree
  obtain ⟨⟨⟨⟨⟨⟨htypedefs, hconstants⟩, henums⟩, hstructs⟩, hunions⟩, hexceptions⟩, hservices⟩ :=
    hsized
  obtain ⟨⟨⟨⟨hconstants', hstructs'⟩, hunions'⟩, hexceptions'⟩, hservices'⟩ := hfree
  rw [List.all_eq_true] at htypedefs hconstants henums hservices hconstants' hservices'
  rw [readDocument]
  refine bind_eq (withDefault_eq hin (undoes_text _) rfl) ?_
  refine bind_eq (listOf_eq hin (fun n _ => undoes_namespace n) rfl) ?_
  refine bind_eq (listOf_eq hin (fun t ht => undoes_typedef (htypedefs t ht)) rfl) ?_
  refine bind_eq (listOf_eq hin
    (fun c hc => undoes_constant (hconstants c hc) (hconstants' c hc)) rfl) ?_
  refine bind_eq (listOf_eq hin (fun e he => undoes_enum (henums e he)) rfl) ?_
  refine bind_eq (listOf_eq hin (undoes_structs hstructs hstructs') rfl) ?_
  refine bind_eq (listOf_eq hin (undoes_structs hunions hunions') rfl) ?_
  refine bind_eq (listOf_eq hin (undoes_structs hexceptions hexceptions') rfl) ?_
  refine bind_eq (listOf_eq hin
    (fun s hs => undoes_service (hservices s hs) (hservices' s hs)) rfl) ?_
  rfl

/-- An include comes back if the tree in it does. -/
theorem readInclude_eq {path : String} {used : Bool} {t : Tree} {level : Nat}
    {tree : Value → Option Tree} (htree : tree (encodeTree t) = some t) :
    readInclude tree level (encodeInclude ⟨path, used, t⟩) = some ⟨path, used, t⟩ := by
  rw [encodeInclude, readInclude]
  refine bind_eq (openRecord_ofMembers rfl (by decide)) ?_
  refine bind_eq (a := path) rfl ?_
  refine bind_eq (a := used) rfl ?_
  refine bind_eq (a := t) htree ?_
  rfl

/-- The tree of a document and of what stands in the place of its includes. -/
def withIncludes (document : Document) : Nat → Option Value → Option Tree
  | _, none => some ⟨document, []⟩
  | level + 2, some (.array includes) =>
    (includes.mapM (readInclude (readTree level) level)).bind fun is => some ⟨document, is⟩
  | 1, some (.array []) => some ⟨document, []⟩
  | _, some _ => none

/-- A tree is read as a record. -/
theorem readTree_succ (level : Nat) (v : Value) : readTree (level + 1) v =
    (openRecord treeMembers v).bind fun ms => (readDocument ms level).bind fun document =>
      withIncludes document level (ms.lookup "includes") := by
  delta readTree
  show Option.bind _ _ = _
  congr 1
  funext ms
  show Option.bind _ _ = _
  congr 1
  funext document
  generalize ms.lookup "includes" = o
  match o, level with
  | none, _ => rfl
  | some (.array []), 0 => rfl
  | some (.array (_ :: _)), 0 => rfl
  | some (.array []), 1 => rfl
  | some (.array (_ :: _)), 1 => rfl
  | some (.array _), _ + 2 =>
    rw [withIncludes]
    delta readTree
    rfl
  | some .null, _ | some (.bool _), _ | some (.number _), _ | some (.text _), _
  | some (.object _), _ => rfl

theorem undoes_tree {t : Tree} (hsized : t.sized = true) (hfree : t.doubleFree = true) :
    Undoes readTree encodeTree t := by
  induction t using Tree.induct with
  | step d is ih =>
      rw [Tree.sized, Tree.every_eq, Bool.and_eq_true, List.all_eq_true] at hsized
      rw [Tree.doubleFree, Tree.every_eq, Bool.and_eq_true, List.all_eq_true] at hfree
      intro level hlevel
      rw [encodeTree_eq] at hlevel ⊢
      obtain ⟨level, rfl, hin⟩ := Value.exists_level_of_members hlevel
      rw [readTree_succ]
      refine bind_eq (openRecord_ofMembers rfl (by decide)) ?_
      refine bind_eq (readDocument_eq hin hsized.1 hfree.1) ?_
      show withIncludes d level (some (.array (is.map encodeInclude))) = _
      obtain ⟨level, rfl, hincludes⟩ :=
        Value.exists_level_of_array (levels_le_of_lookup "includes" hin rfl)
      cases level with
      | zero =>
          -- no level is left for an include, so there is none
          cases is with
          | nil => rfl
          | cons i is =>
              obtain ⟨path, used, t⟩ := i
              have hnone := hincludes _ List.mem_cons_self
              rw [encodeInclude] at hnone
              obtain ⟨_, hnone, -⟩ := Value.exists_level_of_members hnone
              cases hnone
      | succ level =>
          rw [withIncludes]
          refine bind_eq (mapM_undoes ?_) rfl
          rintro ⟨path, used, t⟩ hi
          refine readInclude_eq ?_
          have hlevels := hincludes _ (List.mem_map_of_mem hi)
          rw [encodeInclude] at hlevels
          obtain ⟨_, hinner, hmembers⟩ := Value.exists_level_of_members hlevels
          cases hinner
          exact ih _ hi (hsized.2 _ hi) (hfree.2 _ hi) level
            (levels_le_of_lookup "reference" hmembers rfl)

end IdlScope.Interchange

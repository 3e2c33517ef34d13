import IdlScope.Proofs.Encodings

/-!
# Round trips — a tree comes back from its JSON text

* **`gives_tree`** — whatever text a tree was read from, its integers have the size of their types.
* **`Codec.ofText?_toText`**, **`Codec.rewrites`** — whatever codec data is written and read with, a
  tree without doubles comes back from its text, and a text that was accepted may be rewritten any
  number of times. All that the codec has to do is to read back the data that it writes.
* **`tree_comes_back`** — JSON is such a codec.

How deep a tree is nested is told by its encoding, which writes every member. A text may leave
members out, so it can be less deep than what it is rewritten to.
-/

namespace IdlScope.Interchange

open Json (Value)

/-! ## What is read is in size -/

theorem gives_reference : Gives readReference Reference.sized := by
  intro level v r h
  match level with
  | level + 1 =>
    simp only [readReference, Option.bind_eq_bind, Option.bind_eq_some_iff] at h
    obtain ⟨ms, -, index, hindex, name, -, h⟩ := h
    cases Option.some.inj h
    exact required_gives (gives_int 32) hindex

theorem gives_type : Gives readType IdlType.sized := by
  intro level v t h
  induction level generalizing v t with
  | zero => cases h
  | succ level ih =>
      -- an element type that is there was read one level further in
      have helement : ∀ {o : Option Value} {e : Option IdlType},
          readElement level o = some e → e.all IdlType.sized = true := by
        intro o e he
        unfold readElement at he
        split at he
        · cases Option.some.inj he
          rfl
        · cases Option.some.inj he
          rfl
        · obtain ⟨t, ht, rfl⟩ := Option.map_eq_some_iff.mp he
          exact ih ht
      simp only [readType, Option.bind_eq_bind, Option.bind_eq_some_iff] at h
      obtain ⟨ms, -, name, -, category, -, key, hkey, value, hvalue, reference, hreference, as, -,
        h⟩ := h
      cases Option.some.inj h
      rw [IdlType.sized, IdlType.elementSized_eq, IdlType.elementSized_eq, helement hkey,
        helement hvalue, optional_gives gives_reference hreference]
      rfl

theorem gives_const : Gives readConst ConstValue.sized := by
  intro level v c h
  induction level using Nat.strongRecOn generalizing v c with
  | ind level ih =>
      unfold readConst at h
      split at h
      case h_2 => cases h
      case h_1 =>
        split at h
        case h_1 =>
          obtain ⟨i, hi, rfl⟩ := Option.map_eq_some_iff.mp h
          exact gives_int 64 hi
        case h_2 | h_3 | h_4 =>
          obtain ⟨_, -, rfl⟩ := Option.map_eq_some_iff.mp h
          rfl
        case h_5 =>
          split at h
          case h_2 => cases h
          case h_1 =>
            obtain ⟨items, hitems, rfl⟩ := Option.map_eq_some_iff.mp h
            rw [ConstValue.sized, ConstValue.every_list]
            exact all_of_mapM (fun v _ c hc => ih _ (by omega) hc) hitems
        case h_6 =>
          split at h
          case h_3 => cases h
          case h_2 =>
            cases Option.some.inj h
            rfl
          case h_1 =>
            obtain ⟨entries, hentries, rfl⟩ := Option.map_eq_some_iff.mp h
            rw [ConstValue.sized, ConstValue.every_map]
            refine all_of_mapM (fun v _ e he => ?_) hentries
            split at he
            case h_2 => cases he
            case h_1 =>
              obtain ⟨key, hkey, he⟩ := Option.bind_eq_some_iff.mp he
              obtain ⟨value, hvalue, he⟩ := Option.bind_eq_some_iff.mp he
              cases Option.some.inj he
              exact Bool.and_eq_true_iff.mpr ⟨ih _ (by omega) hkey, ih _ (by omega) hvalue⟩
        case h_7 => cases h

theorem gives_field : Gives readField FieldDecl.sized := by
  intro level v f h
  match level with
  | level + 1 =>
    simp only [readField, Option.bind_eq_bind, Option.bind_eq_some_iff] at h
    obtain ⟨ms, -, id, hid, name, -, requiredness, -, type, htype, initial, hinitial, as, -, h⟩ := h
    cases Option.some.inj h
    rw [FieldDecl.sized, required_gives (gives_int 32) hid, required_gives gives_type htype,
      optional_gives gives_const hinitial]
    rfl

theorem gives_struct : Gives readStruct StructDecl.sized := by
  intro level v s h
  match level with
  | level + 1 =>
    simp only [readStruct, Option.bind_eq_bind, Option.bind_eq_some_iff] at h
    obtain ⟨ms, -, category, -, name, -, fields, hfields, as, -, expandable, -, h⟩ := h
    cases Option.some.inj h
    exact listOf_gives gives_field hfields

theorem gives_enumValue : Gives readEnumValue EnumValueDecl.sized := by
  intro level v e h
  match level with
  | level + 1 =>
    simp only [readEnumValue, Option.bind_eq_bind, Option.bind_eq_some_iff] at h
    obtain ⟨ms, -, name, -, value, hvalue, as, -, h⟩ := h
    cases Option.some.inj h
    exact required_gives (gives_int 64) hvalue

theorem gives_enum : Gives readEnum EnumDecl.sized := by
  intro level v e h
  match level with
  | level + 1 =>
    simp only [readEnum, Option.bind_eq_bind, Option.bind_eq_some_iff] at h
    obtain ⟨ms, -, name, -, values, hvalues, as, -, h⟩ := h
    cases Option.some.inj h
    exact required_gives (gives_list gives_enumValue) hvalues

theorem gives_typedef : Gives readTypedef TypedefDecl.sized := by
  intro level v t h
  match level with
  | level + 1 =>
    simp only [readTypedef, Option.bind_eq_bind, Option.bind_eq_some_iff] at h
    obtain ⟨ms, -, name, -, target, htarget, as, -, h⟩ := h
    cases Option.some.inj h
    exact required_gives gives_type htarget

theorem gives_constant : Gives readConstant ConstantDecl.sized := by
  intro level v c h
  match level with
  | level + 1 =>
    simp only [readConstant, Option.bind_eq_bind, Option.bind_eq_some_iff] at h
    obtain ⟨ms, -, name, -, type, htype, value, hvalue, h⟩ := h
    cases Option.some.inj h
    rw [ConstantDecl.sized, required_gives gives_type htype, required_gives gives_const hvalue]
    rfl

theorem gives_function : Gives readFunction FunctionDecl.sized := by
  intro level v f h
  match level with
  | level + 1 =>
    simp only [readFunction, Option.bind_eq_bind, Option.bind_eq_some_iff] at h
    obtain ⟨ms, -, name, -, oneway, -, void, -, result, hresult, arguments, harguments, throws,
      hthrows, as, -, h⟩ := h
    cases Option.some.inj h
    rw [FunctionDecl.sized, required_gives gives_type hresult, listOf_gives gives_field harguments,
      listOf_gives gives_field hthrows]
    rfl

theorem gives_service : Gives readService ServiceDecl.sized := by
  intro level v s h
  match level with
  | level + 1 =>
    simp only [readService, Option.bind_eq_bind, Option.bind_eq_some_iff] at h
    obtain ⟨ms, -, name, -, base, -, baseReference, hreference, functions, hfunctions, as, -,
      h⟩ := h
    cases Option.some.inj h
    rw [ServiceDecl.sized, optional_gives gives_reference hreference,
      listOf_gives gives_function hfunctions]
    rfl

theorem sized_of_readDocument {ms : Members} {level : Nat} {d : Document}
    (h : readDocument ms level = some d) : d.sized = true := by
  simp only [readDocument, Option.bind_eq_bind, Option.bind_eq_some_iff] at h
  obtain ⟨filename, -, namespaces, -, typedefs, htypedefs, constants, hconstants, enums, henums,
    structs, hstructs, unions, hunions, exceptions, hexceptions, services, hservices, h⟩ := h
  cases Option.some.inj h
  rw [Document.sized, listOf_gives gives_typedef htypedefs, listOf_gives gives_constant hconstants,
    listOf_gives gives_enum henums, listOf_gives gives_struct hstructs,
    listOf_gives gives_struct hunions, listOf_gives gives_struct hexceptions,
    listOf_gives gives_service hservices]
  rfl

theorem content_of_readInclude {tree : Value → Option Tree} {level : Nat} {v : Value}
    {i : Included Tree} (h : readInclude tree level v = some i) :
    ∃ w, tree w = some i.content := by
  simp only [readInclude, Option.bind_eq_bind, Option.bind_eq_some_iff] at h
  obtain ⟨ms, -, path, -, used, -, content, hcontent, h⟩ := h
  cases Option.some.inj h
  obtain ⟨w, -, hw⟩ := Option.bind_eq_some_iff.mp hcontent
  exact ⟨w, hw⟩

/-- Whatever text a tree was read from, its integers are in size. -/
theorem gives_tree : Gives readTree Tree.sized := by
  intro level v t h
  induction level using Nat.strongRecOn generalizing v t with
  | ind level ih =>
      match level with
      | level + 1 =>
        rw [readTree_succ] at h
        obtain ⟨ms, -, h⟩ := Option.bind_eq_some_iff.mp h
        obtain ⟨d, hd, h⟩ := Option.bind_eq_some_iff.mp h
        have hdocument := sized_of_readDocument hd
        unfold withIncludes at h
        split at h
        case h_1 | h_3 =>
          cases Option.some.inj h
          rw [Tree.sized, Tree.every_eq, hdocument]
          rfl
        case h_2 =>
          obtain ⟨is, his, h⟩ := Option.bind_eq_some_iff.mp h
          cases Option.some.inj h
          rw [Tree.sized, Tree.every_eq, hdocument, Bool.true_and]
          refine all_of_mapM (fun v _ i hi => ?_) his
          obtain ⟨w, hw⟩ := content_of_readInclude hi
          exact ih _ (by omega) hw
        case h_4 => cases h

/-! ## The round trip -/

/-- A way to write data as text and to read it back, where all is read back that is well-formed and
not nested too deeply. -/
structure Codec where
  write : Value → String
  read : String → Option Value
  read_write : ∀ v : Value, v.WellFormed → v.levels ≤ maxLevels → read (write v) = some v

namespace Codec

/-- Pretty JSON text, and its reader. -/
def pretty : Codec where
  write := Value.pretty
  read := Value.ofText?
  read_write _ h _ := Value.ofText?_pretty h

variable (c : Codec)

/-- The tree as text. -/
def toText (t : Tree) : String := c.write (encodeTree t)

/-- The tree that a text stands for. -/
def ofText? (s : String) : Option Tree := (c.read s).bind ofValue?

/-- The text of a tree is read as the tree. -/
theorem ofText?_toText {t : Tree} (hsized : t.sized = true) (hfree : t.doubleFree = true)
    (hlevels : (encodeTree t).levels ≤ maxLevels) : c.ofText? (c.toText t) = some t := by
  rw [ofText?, toText, c.read_write _ (wellFormed_encodeTree hfree) hlevels, Option.bind_some]
  exact undoes_tree hsized hfree maxLevels hlevels

theorem sized_of_ofText? {s : String} {t : Tree} (h : c.ofText? s = some t) : t.sized = true := by
  obtain ⟨v, -, hv⟩ := Option.bind_eq_some_iff.mp h
  exact gives_tree hv

/-- A tree that was read is written as a text that stands for it and nothing else, and that is
written for whatever is read from it. -/
theorem rewrites {s : String} {t : Tree} (h : c.ofText? s = some t) (hfree : t.doubleFree = true)
    (hlevels : (encodeTree t).levels ≤ maxLevels) :
    c.ofText? (c.toText t) = some t ∧
      ∀ t', c.ofText? (c.toText t) = some t' → c.toText t' = c.toText t := by
  have hback := c.ofText?_toText (c.sized_of_ofText? h) hfree hlevels
  refine ⟨hback, ?_⟩
  intro t' ht'
  rw [Option.some.inj (ht'.symm.trans hback)]

end Codec

/-- **Trees come back.** Let a tree hold no double, and let its nesting be within the levels of the
reader. If its integers have the size of their types, its text is read as the tree. And if it was
read from some text, the text it is rewritten to gives the same tree again, which is written as
that same text. -/
theorem tree_comes_back :
    (∀ t : Tree, t.sized = true → t.doubleFree = true → (encodeTree t).levels ≤ maxLevels →
      ofJson? (toJson t) = some t) ∧
    (∀ (s : String) (t : Tree), ofJson? s = some t → t.doubleFree = true →
      (encodeTree t).levels ≤ maxLevels →
      ofJson? (toJson t) = some t ∧ ∀ t', ofJson? (toJson t) = some t' → toJson t' = toJson t) := by
  constructor
  · intro t hsized hfree hlevels
    exact Codec.pretty.ofText?_toText hsized hfree hlevels
  · intro s t hs hfree hlevels
    exact Codec.pretty.rewrites hs hfree hlevels

end IdlScope.Interchange

namespace IdlScope

namespace Sample

/-- A file of units, whose annotation holds a quote, a line end, a control character and a
character of two surrogates. -/
def units : Tree where
  document := { Document.empty "units.thrift" with
    enums := [⟨"Unit", [⟨"LOW", -9223372036854775808, []⟩, ⟨"HIGH", 9223372036854775807, []⟩],
      [⟨"note", ["\"\n\x01😀é\\"]⟩]⟩] }
  includes := []

/-- A file that includes the units and holds a default of nested maps and lists. -/
def scales : Tree where
  document := { Document.empty "scales.thrift" with
    structs := [⟨"struct", "Scale",
      [⟨-1, "steps", .optional,
        ⟨"map", .map, some (.named "string" .string), some ⟨"units.Unit", .enum, none, none,
          some ⟨0, "Unit"⟩, []⟩, none, []⟩,
        some (.map [(.literal "a", .list [.int (-5), .identifier "units.LOW"]),
          (.list [], .map [])]), []⟩], [], some true⟩] }
  includes := [⟨"units.thrift", false, units⟩]

/-- Data that says only the name of a file, and something else that no tree has. -/
def brief : Json.Value :=
  .ofMembers [("other", .array []), ("filename", .ofString "brief.thrift")]

end Sample

namespace Interchange

theorem ofJson?_brief :
    ofJson? Sample.brief.pretty = some ⟨.empty "brief.thrift", []⟩ := by
  have hbrief : Sample.brief.WellFormed := by
    refine .ofMembers ?_
    simp only [List.forall_mem_cons]
    exact ⟨.array fun _ h => absurd h List.not_mem_nil, .text _, wellFormed_nil⟩
  rw [ofJson?, Json.Value.ofText?_pretty hbrief, Option.bind_some]
  show readTree (126 + 1) _ = _
  rw [readTree_succ]
  rfl

/-- The scales come back, and so does what the brief data says. -/
theorem tree_comes_back_scales : ofJson? (toJson Sample.scales) = some Sample.scales ∧
    ∃ t, ofJson? Sample.brief.pretty = some t ∧ ofJson? (toJson t) = some t := by
  constructor
  · exact tree_comes_back.1 Sample.scales (by decide) (by decide) (by decide)
  · exact ⟨_, ofJson?_brief,
      (tree_comes_back.2 _ _ ofJson?_brief (by decide) (by decide)).1⟩

end Interchange

end IdlScope

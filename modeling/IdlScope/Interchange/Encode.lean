import IdlScope.Decimal.Layout
import IdlScope.Idl.Tree
import IdlScope.Json.Pretty

/-!
# Trees as JSON — writing

Every field is written, in a fixed order; an absent optional value is `null`. Included files
are written inside the include that leads to them.
-/

namespace IdlScope.Interchange

open Json (Value)

/-- A list of texts. -/
def encodeTexts (ss : List String) : Value :=
  .array (ss.map .ofString)

/-- An optional value, or `null`. -/
def encodeOption {α : Type} (encode : α → Value) : Option α → Value
  | none => .null
  | some a => encode a

/-- A double as a number; it always shows a fraction or an exponent. -/
def encodeDouble (x : Float) : Value :=
  match (Json.tokens? (compactDouble x).toList).bind Value.ofTokens? with
  | some v => v
  | none => .null

def encodeAnnotations (as : Annotations) : Value :=
  .array (as.map fun a =>
    .ofMembers [("key", .ofString a.key), ("values", encodeTexts a.values)])

def encodeReference (r : Reference) : Value :=
  .ofMembers [("index", .ofInt r.index), ("name", .ofString r.name)]

mutual

/-- A type; its element types are inside it. -/
def encodeType : IdlType → Value
  | ⟨name, category, key, value, reference, annotations⟩ =>
    .ofMembers [
      ("name", .ofString name),
      ("category", .ofString category.spelling),
      ("key_type", encodeElement key),
      ("value_type", encodeElement value),
      ("reference", encodeOption encodeReference reference),
      ("annotations", encodeAnnotations annotations)]
termination_by structural t => t

/-- An element type, or `null`. -/
def encodeElement : Option IdlType → Value
  | none => .null
  | some t => encodeType t
termination_by structural t => t

end

mutual

/-- A constant value, as an object whose one member says what kind it is. -/
def encodeConst : ConstValue → Value
  | .int v => .ofMembers [("int", .ofInt v)]
  | .double x => .ofMembers [("double", encodeDouble x)]
  | .literal s => .ofMembers [("literal", .ofString s)]
  | .identifier s => .ofMembers [("identifier", .ofString s)]
  | .list items => .ofMembers [("list", .array (encodeConsts items))]
  | .map entries => .ofMembers [("map", .array (encodeEntries entries))]
termination_by structural v => v

def encodeConsts : List ConstValue → List Value
  | [] => []
  | v :: vs => encodeConst v :: encodeConsts vs
termination_by structural vs => vs

def encodeEntries : List (ConstValue × ConstValue) → List Value
  | [] => []
  | e :: es => encodeEntry e :: encodeEntries es
termination_by structural es => es

/-- An entry of a map, as an array of its key and its value. -/
def encodeEntry : ConstValue × ConstValue → Value
  | (k, v) => .array [encodeConst k, encodeConst v]
termination_by structural e => e

end

def encodeField (f : FieldDecl) : Value :=
  .ofMembers [
    ("id", .ofInt f.id),
    ("name", .ofString f.name),
    ("requiredness", .ofString f.requiredness.spelling),
    ("type", encodeType f.type),
    ("default", encodeOption encodeConst f.initial),
    ("annotations", encodeAnnotations f.annotations)]

def encodeStruct (s : StructDecl) : Value :=
  .ofMembers [
    ("category", .ofString s.category),
    ("name", .ofString s.name),
    ("fields", .array (s.fields.map encodeField)),
    ("annotations", encodeAnnotations s.annotations),
    ("expandable", encodeOption .bool s.expandable)]

def encodeEnumValue (v : EnumValueDecl) : Value :=
  .ofMembers [
    ("name", .ofString v.name),
    ("value", .ofInt v.value),
    ("annotations", encodeAnnotations v.annotations)]

def encodeEnum (e : EnumDecl) : Value :=
  .ofMembers [
    ("name", .ofString e.name),
    ("values", .array (e.values.map encodeEnumValue)),
    ("annotations", encodeAnnotations e.annotations)]

def encodeTypedef (t : TypedefDecl) : Value :=
  .ofMembers [
    ("alias", .ofString t.name),
    ("type", encodeType t.target),
    ("annotations", encodeAnnotations t.annotations)]

def encodeConstant (c : ConstantDecl) : Value :=
  .ofMembers [
    ("name", .ofString c.name),
    ("type", encodeType c.type),
    ("value", encodeConst c.value)]

def encodeFunction (f : FunctionDecl) : Value :=
  .ofMembers [
    ("name", .ofString f.name),
    ("oneway", .bool f.oneway),
    ("void", .bool f.void),
    ("function_type", encodeType f.result),
    ("arguments", .array (f.arguments.map encodeField)),
    ("throws", .array (f.throws.map encodeField)),
    ("annotations", encodeAnnotations f.annotations)]

def encodeService (s : ServiceDecl) : Value :=
  .ofMembers [
    ("name", .ofString s.name),
    ("extends", encodeOption .ofString s.base),
    ("extends_reference", encodeOption encodeReference s.baseReference),
    ("functions", .array (s.functions.map encodeFunction)),
    ("annotations", encodeAnnotations s.annotations)]

def encodeNamespace (n : NamespaceDecl) : Value :=
  .ofMembers [("language", .ofString n.language), ("name", .ofString n.name)]

mutual

/-- A file with everything that it includes. -/
def encodeTree : Tree → Value
  | ⟨d, includes⟩ =>
    .ofMembers [
      ("filename", .ofString d.filename),
      ("includes", .array (encodeIncludes includes)),
      ("namespaces", .array (d.namespaces.map encodeNamespace)),
      ("typedefs", .array (d.typedefs.map encodeTypedef)),
      ("constants", .array (d.constants.map encodeConstant)),
      ("enums", .array (d.enums.map encodeEnum)),
      ("structs", .array (d.structs.map encodeStruct)),
      ("unions", .array (d.unions.map encodeStruct)),
      ("exceptions", .array (d.exceptions.map encodeStruct)),
      ("services", .array (d.services.map encodeService))]
termination_by structural t => t

def encodeIncludes : List (Included Tree) → List Value
  | [] => []
  | i :: is => encodeInclude i :: encodeIncludes is
termination_by structural is => is

def encodeInclude : Included Tree → Value
  | ⟨path, used, tree⟩ =>
    .ofMembers [("path", .ofString path), ("used", .bool used), ("reference", encodeTree tree)]
termination_by structural i => i

end

/-- The tree as pretty JSON text. -/
def toJson (t : Tree) : String :=
  (encodeTree t).pretty

end IdlScope.Interchange

import IdlScope.Idl.Tree
import IdlScope.Json.Value

/-!
# Trees as JSON — reading

A record is an object whose members are looked up by name; members that the record does not
know are ignored, and a member that it knows may not come twice. A record may also be
written as an array of its members in order. Members with a default may be missing.

Every array and every object that is read opens one level, and no more than 127 levels may
be open at once. The number of levels left is also what the recursion runs on, so a reader
of a nested type needs no other measure.
-/

namespace IdlScope.Interchange

open Json (Value)

/-- The levels of arrays and objects that a text may open. -/
def maxLevels : Nat := 127

/-- A reader: given the levels left and a value, what the value stands for. -/
abbrev Reader (α : Type) := Nat → Value → Option α

/-! ## Plain values -/

def readText : Reader String
  | _, .text s => s
  | _, _ => none

def readBool : Reader Bool
  | _, .bool b => some b
  | _, _ => none

/-- An integer of the given number of bits. -/
def readInt (bits : Nat) : Reader Int
  | _, .number n =>
    n.int?.bind fun i =>
      let bound : Int := Nat.pow 2 (bits - 1)
      if -bound ≤ i ∧ i < bound then some i else none
  | _, _ => none

def readDouble : Reader Float
  | _, .number n => n.double?
  | _, _ => none

/-- A value that may be `null`. -/
def readOption {α : Type} (item : Reader α) : Reader (Option α)
  | _, .null => some none
  | level, v => (item level v).map some

/-- A list opens a level, in which its items are read. -/
def readList {α : Type} (item : Reader α) : Reader (List α)
  | level + 1, .array items => items.mapM (item level)
  | _, _ => none

/-- A choice among spellings, written as a text or as an object from the text to `null`. -/
def readSpelling {α : Type} (ofSpelling? : String → Option α) : Reader α
  | _, .text s => s.bind ofSpelling?
  | _ + 1, .object [(key, .null)] => key.bind ofSpelling?
  | _, _ => none

/-! ## Records -/

/-- The members of a record that carry names it knows. -/
abbrev Members := List (String × Value)

/-- Do all names differ? -/
def distinct : List String → Bool
  | [] => true
  | s :: rest => !rest.contains s && distinct rest

/-- The members of an object whose names a record knows. -/
def knownMembers (known : List String) : List (Option String × Value) → Option Members
  | [] => some []
  | (none, _) :: _ => none
  | (some key, v) :: rest =>
    (knownMembers known rest).map fun ms => if known.contains key then (key, v) :: ms else ms

/-- Opens a record with the given member names. -/
def openRecord (known : List String) : Value → Option Members
  | .object members =>
    (knownMembers known members).bind fun ms =>
      if distinct (ms.map Prod.fst) then some ms else none
  | .array items => if items.length ≤ known.length then some (known.zip items) else none
  | _ => none

/-- A member that has to be there. -/
def required {α : Type} (ms : Members) (level : Nat) (key : String) (read : Reader α) : Option α :=
  (ms.lookup key).bind (read level)

/-- A member with a default. -/
def withDefault {α : Type} (ms : Members) (level : Nat) (key : String) (default : α)
    (read : Reader α) : Option α :=
  match ms.lookup key with
  | none => some default
  | some v => read level v

/-- A list member, empty by default. -/
def listOf {α : Type} (ms : Members) (level : Nat) (key : String) (item : Reader α) :
    Option (List α) :=
  withDefault ms level key [] (readList item)

/-- A member that may be missing or `null`. -/
def optional {α : Type} (ms : Members) (level : Nat) (key : String) (read : Reader α) :
    Option (Option α) :=
  withDefault ms level key none (readOption read)

/-! ## Types and constants -/

def readEntry : Reader AnnotationEntry
  | level + 1, v => do
    let ms ← openRecord ["key", "values"] v
    return ⟨← required ms level "key" readText, ← required ms level "values" (readList readText)⟩
  | 0, _ => none

def annotationsOf (ms : Members) (level : Nat) : Option Annotations :=
  listOf ms level "annotations" readEntry

def readReference : Reader Reference
  | level + 1, v => do
    let ms ← openRecord ["index", "name"] v
    return ⟨← required ms level "index" (readInt 32), ← required ms level "name" readText⟩
  | 0, _ => none

/-- A type. Its element types are one level further in. -/
def readType : Reader IdlType
  | level + 1, v => do
    let ms ← openRecord
      ["name", "category", "key_type", "value_type", "reference", "annotations"] v
    return {
      name := ← required ms level "name" readText
      category := ← required ms level "category" (readSpelling Category.ofSpelling?)
      key := ← (
        match ms.lookup "key_type" with
        | none | some .null => some none
        | some t => (readType level t).map some)
      value := ← (
        match ms.lookup "value_type" with
        | none | some .null => some none
        | some t => (readType level t).map some)
      reference := ← optional ms level "reference" readReference
      annotations := ← annotationsOf ms level }
  | 0, _ => none

/-- A constant value is an object with one member, whose name says what kind it is. -/
def readConst : Reader ConstValue
  | level + 1, .object [(some key, v)] =>
    match key with
    | "int" => (readInt 64 level v).map .int
    | "double" => (readDouble level v).map .double
    | "literal" => (readText level v).map .literal
    | "identifier" => (readText level v).map .identifier
    | "list" =>
      match level, v with
      | level + 1, .array items => (items.mapM (readConst level)).map .list
      | _, _ => none
    | "map" =>
      match level, v with
      | level + 2, .array entries =>
        (entries.mapM fun (entry : Value) =>
          match entry with
          | .array [k, v] => do return (← readConst level k, ← readConst level v)
          | _ => none).map .map
      | 1, .array [] => some (.map [])
      | _, _ => none
    | _ => none
  | _, _ => none

/-! ## Declarations -/

def readField : Reader FieldDecl
  | level + 1, v => do
    let ms ← openRecord ["id", "name", "requiredness", "type", "default", "annotations"] v
    return {
      id := ← required ms level "id" (readInt 32)
      name := ← required ms level "name" readText
      requiredness := ← withDefault ms level "requiredness" .default
        (readSpelling Requiredness.ofSpelling?)
      type := ← required ms level "type" readType
      initial := ← optional ms level "default" readConst
      annotations := ← annotationsOf ms level }
  | 0, _ => none

def readStruct : Reader StructDecl
  | level + 1, v => do
    let ms ← openRecord ["category", "name", "fields", "annotations", "expandable"] v
    return {
      category := ← required ms level "category" readText
      name := ← required ms level "name" readText
      fields := ← listOf ms level "fields" readField
      annotations := ← annotationsOf ms level
      expandable := ← optional ms level "expandable" readBool }
  | 0, _ => none

def readEnumValue : Reader EnumValueDecl
  | level + 1, v => do
    let ms ← openRecord ["name", "value", "annotations"] v
    return {
      name := ← required ms level "name" readText
      value := ← required ms level "value" (readInt 64)
      annotations := ← annotationsOf ms level }
  | 0, _ => none

def readEnum : Reader EnumDecl
  | level + 1, v => do
    let ms ← openRecord ["name", "values", "annotations"] v
    return {
      name := ← required ms level "name" readText
      values := ← required ms level "values" (readList readEnumValue)
      annotations := ← annotationsOf ms level }
  | 0, _ => none

def readTypedef : Reader TypedefDecl
  | level + 1, v => do
    let ms ← openRecord ["alias", "type", "annotations"] v
    return {
      name := ← required ms level "alias" readText
      target := ← required ms level "type" readType
      annotations := ← annotationsOf ms level }
  | 0, _ => none

def readConstant : Reader ConstantDecl
  | level + 1, v => do
    let ms ← openRecord ["name", "type", "value"] v
    return {
      name := ← required ms level "name" readText
      type := ← required ms level "type" readType
      value := ← required ms level "value" readConst }
  | 0, _ => none

def readFunction : Reader FunctionDecl
  | level + 1, v => do
    let ms ← openRecord
      ["name", "oneway", "void", "function_type", "arguments", "throws", "annotations"] v
    return {
      name := ← required ms level "name" readText
      oneway := ← withDefault ms level "oneway" false readBool
      void := ← withDefault ms level "void" false readBool
      result := ← required ms level "function_type" readType
      arguments := ← listOf ms level "arguments" readField
      throws := ← listOf ms level "throws" readField
      annotations := ← annotationsOf ms level }
  | 0, _ => none

def readService : Reader ServiceDecl
  | level + 1, v => do
    let ms ← openRecord ["name", "extends", "extends_reference", "functions", "annotations"] v
    return {
      name := ← required ms level "name" readText
      base := ← optional ms level "extends" readText
      baseReference := ← optional ms level "extends_reference" readReference
      functions := ← listOf ms level "functions" readFunction
      annotations := ← annotationsOf ms level }
  | 0, _ => none

def readNamespace : Reader NamespaceDecl
  | level + 1, v => do
    let ms ← openRecord ["language", "name"] v
    return ⟨← required ms level "language" readText, ← required ms level "name" readText⟩
  | 0, _ => none

/-! ## Trees -/

/-- An include, given what to make of the tree in it. -/
def readInclude (tree : Value → Option Tree) (level : Nat) (v : Value) :
    Option (Included Tree) := do
  let ms ← openRecord ["path", "used", "reference"] v
  return {
    path := ← required ms level "path" readText
    used := ← withDefault ms level "used" true readBool
    content := ← required ms level "reference" fun _ => tree }

/-- What a file says itself, from the members of its tree. -/
def readDocument (ms : Members) (level : Nat) : Option Document := do
  return {
    filename := ← withDefault ms level "filename" "" readText
    namespaces := ← listOf ms level "namespaces" readNamespace
    typedefs := ← listOf ms level "typedefs" readTypedef
    constants := ← listOf ms level "constants" readConstant
    enums := ← listOf ms level "enums" readEnum
    structs := ← listOf ms level "structs" readStruct
    unions := ← listOf ms level "unions" readStruct
    exceptions := ← listOf ms level "exceptions" readStruct
    services := ← listOf ms level "services" readService }

/-- The members of a tree. -/
def treeMembers : List String := [
  "filename", "includes", "namespaces", "typedefs", "constants", "enums", "structs", "unions",
  "exceptions", "services"]

/-- A tree. Its include list opens a level, each include in it a second one. -/
def readTree : Reader Tree
  | level + 1, v => do
    let ms ← openRecord treeMembers v
    let document ← readDocument ms level
    match ms.lookup "includes", level with
    | none, _ => return ⟨document, []⟩
    | some (.array includes), level + 2 =>
      return ⟨document, ← includes.mapM (readInclude (readTree level) level)⟩
    | some (.array []), 1 => return ⟨document, []⟩
    | some _, _ => none
  | 0, _ => none

/-- The tree that a value stands for. -/
def ofValue? (v : Value) : Option Tree :=
  readTree maxLevels v

/-- The tree that a JSON text stands for. -/
def ofJson? (s : String) : Option Tree :=
  (Value.ofText? s).bind ofValue?

end IdlScope.Interchange

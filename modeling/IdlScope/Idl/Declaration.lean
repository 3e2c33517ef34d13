import IdlScope.Idl.Type

/-!
# Declarations — what one source file declares

Plain data, as the parser of a source file hands it over. The category of a structure is
kept as it was spelled, so that an unknown one can be reported instead of refused.
-/

namespace IdlScope

/-- How much a field is required. -/
inductive Requiredness where
  | default
  | required
  | optional
  deriving DecidableEq

namespace Requiredness

/-- How the requiredness is spelled. -/
def spelling : Requiredness → String
  | .default => "default"
  | .required => "required"
  | .optional => "optional"

/-- The requiredness that is spelled so. -/
def ofSpelling? (s : String) : Option Requiredness :=
  [.default, .required, .optional].find? (·.spelling == s)

@[simp] theorem ofSpelling?_spelling (r : Requiredness) : ofSpelling? r.spelling = some r := by
  cases r <;> decide

end Requiredness

/-- A field of a structure, an argument of a function, or an exception that it throws. -/
structure FieldDecl where
  id : Int
  name : String
  requiredness : Requiredness
  type : IdlType
  initial : Option ConstValue
  annotations : Annotations

namespace FieldDecl

/-- The field made optional. -/
def asOptional (f : FieldDecl) : FieldDecl := { f with requiredness := .optional }

end FieldDecl

/-- A struct, union or exception. -/
structure StructDecl where
  category : String
  name : String
  fields : List FieldDecl
  annotations : Annotations
  /-- Says whether fields that refer to the structure expand; if absent, an annotation does. -/
  expandable : Option Bool

/-- A value of an enum. -/
structure EnumValueDecl where
  name : String
  value : Int
  annotations : Annotations

/-- An enum. -/
structure EnumDecl where
  name : String
  values : List EnumValueDecl
  annotations : Annotations

/-- A second name for a type. -/
structure TypedefDecl where
  name : String
  target : IdlType
  annotations : Annotations

/-- A named constant. -/
structure ConstantDecl where
  name : String
  type : IdlType
  value : ConstValue

/-- A function of a service. A void function still carries a result type, which is ignored. -/
structure FunctionDecl where
  name : String
  oneway : Bool
  void : Bool
  result : IdlType
  arguments : List FieldDecl
  throws : List FieldDecl
  annotations : Annotations

/-- A service and the name of the service it extends. -/
structure ServiceDecl where
  name : String
  base : Option String
  baseReference : Option Reference
  functions : List FunctionDecl
  annotations : Annotations

/-- The namespace of a file for one output language; `*` stands for every language. -/
structure NamespaceDecl where
  language : String
  name : String
  deriving DecidableEq

end IdlScope

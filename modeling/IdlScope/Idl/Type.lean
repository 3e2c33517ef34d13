import IdlScope.Idl.Annotations
import IdlScope.Idl.Category

/-!
# Types and constant values as they are written

A type descriptor carries the name and the category that the source gives it; nothing says
yet which declaration it means. A container may lack an element type, which is found out
when the type is resolved. A reference links a descriptor to a declaration of an included
file by the position of the include.
-/

namespace IdlScope

/-- The two parts of a name that may be qualified, cut at its last dot. -/
def splitQualified (name : String) : Option String × String :=
  Text.splitLast '.' name

/-- A link to a declaration in an included file. -/
structure Reference where
  /-- The position of the include in the include list of the referring file. -/
  index : Int
  /-- The name of the declaration; empty where the descriptor's own name serves. -/
  name : String
  deriving DecidableEq

/-- A type descriptor. -/
structure IdlType where
  name : String
  category : Category
  key : Option IdlType
  value : Option IdlType
  reference : Option Reference
  annotations : Annotations

namespace IdlType

/-- A descriptor that is only a name and a category. -/
def named (name : String) (category : Category) : IdlType :=
  ⟨name, category, none, none, none, []⟩

/-- The qualifier and the bare name of the type. -/
def splitName (t : IdlType) : Option String × String :=
  splitQualified t.name

/-- The name of the type without its qualifier. -/
def bareName (t : IdlType) : String :=
  (splitQualified t.name).2

end IdlType

/-- A constant value: the default of a field or the value of a constant. -/
inductive ConstValue where
  | int (value : Int)
  | double (value : Float)
  | literal (value : String)
  /-- An enum value or a constant by its name, qualified or not. -/
  | identifier (name : String)
  | list (items : List ConstValue)
  | map (entries : List (ConstValue × ConstValue))

end IdlScope

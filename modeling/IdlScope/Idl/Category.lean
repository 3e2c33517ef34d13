/-!
# Categories — what kind of type a descriptor names

A category tells base types, containers and declared types apart without looking anything
up. `typedef` names a type whose real category has to be found; `service` is no type at all.
-/

namespace IdlScope

/-- The category of a type descriptor. -/
inductive Category where
  | bool
  | byte
  | i8
  | i16
  | i32
  | i64
  | double
  | string
  | binary
  | map
  | set
  | list
  | enum
  | struct
  | union
  | exception
  | typedef
  | service
  deriving DecidableEq

namespace Category

/-- The categories of values that need no declaration and hold no elements. -/
def isBase : Category → Bool
  | .bool | .byte | .i8 | .i16 | .i32 | .i64 | .double | .string | .binary => true
  | _ => false

/-- The categories of types that hold elements. -/
def isContainer : Category → Bool
  | .map | .set | .list => true
  | _ => false

/-- The categories of types that have fields. -/
def isStructLike : Category → Bool
  | .struct | .union | .exception => true
  | _ => false

/-- All categories. -/
def all : List Category := [
  .bool, .byte, .i8, .i16, .i32, .i64, .double, .string, .binary, .map, .set, .list, .enum,
  .struct, .union, .exception, .typedef, .service]

/-- How the category is spelled. -/
def spelling : Category → String
  | .bool => "bool"
  | .byte => "byte"
  | .i8 => "i8"
  | .i16 => "i16"
  | .i32 => "i32"
  | .i64 => "i64"
  | .double => "double"
  | .string => "string"
  | .binary => "binary"
  | .map => "map"
  | .set => "set"
  | .list => "list"
  | .enum => "enum"
  | .struct => "struct"
  | .union => "union"
  | .exception => "exception"
  | .typedef => "typedef"
  | .service => "service"

/-- The category that is spelled so. -/
def ofSpelling? (s : String) : Option Category :=
  all.find? (·.spelling == s)

/-- The spelling of a category is read back as the category. -/
@[simp] theorem ofSpelling?_spelling (c : Category) : ofSpelling? c.spelling = some c := by
  cases c <;> decide

end Category

end IdlScope

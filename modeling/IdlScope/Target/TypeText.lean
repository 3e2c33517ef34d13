import IdlScope.Idl.Category
import IdlScope.Options
import IdlScope.Text.Segments

/-!
# Type texts — how types are spelled in the output

Each language spells base types, containers and declared types in its own way. A declared
type is spelled by its name, qualified where it comes from another package.
-/

namespace IdlScope

/-- A name, qualified if it needs to be. -/
def qualify (qualifier : Option String) (name : String) : String :=
  match qualifier with
  | some q => q ++ "." ++ name
  | none => name

namespace Language

/-- The spelling of a base type. -/
def baseType : Language → Category → String
  | .go, c =>
    match c with
    | .bool => "bool"
    | .byte | .i8 => "int8"
    | .i16 => "int16"
    | .i32 => "int32"
    | .i64 => "int64"
    | .double => "float64"
    | .string => "string"
    | .binary => "[]byte"
    | _ => "interface\x7b\x7d"
  | .typescript, c =>
    match c with
    | .bool => "boolean"
    | .byte | .i8 | .i16 | .i32 | .i64 | .double => "number"
    | .string => "string"
    | .binary => "Uint8Array"
    | _ => "any"
  | .openApi, c =>
    match c with
    | .bool => "boolean"
    | .byte | .i8 | .i16 | .i32 => "integer:int32"
    | .i64 => "integer:int64"
    | .double => "number:double"
    | .string => "string"
    | .binary => "string:binary"
    | _ => "object"

/-- The type of lists. -/
def listType : Language → String → String
  | .go, item => "[]" ++ item
  | .typescript, item => "Array<" ++ item ++ ">"
  | .openApi, item => "array<" ++ item ++ ">"

/-- The type of sets. -/
def setType : Language → String → String
  | .go, item => "[]" ++ item
  | .typescript, item => "Set<" ++ item ++ ">"
  | .openApi, item => "array<" ++ item ++ ">"

/-- The type of maps. -/
def mapType : Language → String → String → String
  | .go, key, value => "map[" ++ key ++ "]" ++ value
  | .typescript, key, value => "\x7b [key: " ++ key ++ "]: " ++ value ++ " \x7d"
  | .openApi, _, value => "object<" ++ value ++ ">"

/-- A declared type; `underlying` is its category behind all typedefs. -/
def declaredType : Language → Option String → String → Category → String
  | .go, qualifier, name, underlying =>
    if underlying.isStructLike then "*" ++ qualify qualifier name else qualify qualifier name
  | .typescript, qualifier, name, _ => qualify qualifier name
  | .openApi, some q, name, _ => q ++ ".yaml#/components/schemas/" ++ name
  | .openApi, none, name, _ => "#/components/schemas/" ++ name

/-- A type as the right-hand side of a typedef. -/
def aliasType : Language → String → String
  | .go, text => Text.dropLeading '*' text
  | .typescript, text | .openApi, text => text

end Language

end IdlScope

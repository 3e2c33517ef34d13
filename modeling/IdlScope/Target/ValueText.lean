import IdlScope.Decimal.Layout
import IdlScope.Target.TypeText
import IdlScope.Text.Quoted

/-!
# Value texts — how values are written in the output

A value without a declared default is the zero of its category. Literals of containers are
written from the texts of their elements, which are values themselves.
-/

namespace IdlScope.Language

/-- The value of a field that declares none. -/
def zeroValue : Language → Category → String → String
  | .go, underlying, type =>
    match underlying with
    | .bool => "false"
    | .byte | .i8 | .i16 | .i32 | .i64 | .double => "0"
    | .string => "\"\""
    | .enum => type ++ "(0)"
    | _ => "nil"
  | .typescript, underlying, _ =>
    match underlying with
    | .bool => "false"
    | .byte | .i8 | .i16 | .i32 | .i64 | .double | .enum => "0"
    | .string => "\"\""
    | .binary => "new Uint8Array()"
    | .list => "[]"
    | .set => "new Set()"
    | .map => "\x7b\x7d"
    | _ => "null"
  | .openApi, underlying, _ =>
    match underlying with
    | .bool => "false"
    | .byte | .i8 | .i16 | .i32 | .i64 | .double | .enum => "0"
    | .string | .binary => "\"\""
    | .list | .set => "[]"
    | .map => "\x7b\x7d"
    | _ => "null"

/-- An integer of a type. -/
def intLiteral : Language → Int → String → String
  | .go, value, type =>
    if type ∈ ["int8", "int16", "int32", "int64", ""] then toString value
    else type ++ "(" ++ toString value ++ ")"
  | .typescript, value, _ | .openApi, value, _ => toString value

/-- A double without exponent; a whole number shows its point. -/
def doubleLiteral (value : Float) : String :=
  let text := positionalDouble value
  if text.toList.contains '.' || !value.isFinite then text else text ++ ".0"

/-- A truth value. -/
def boolLiteral (value : Bool) : String :=
  if value then "true" else "false"

/-- A list or set of a type. -/
def listLiteral : Language → String → List String → String
  | .go, type, items =>
    Text.dropLeading '*' type ++ "\x7b" ++ ", ".intercalate items ++ "\x7d"
  | .typescript, type, items =>
    if Text.startsWith "Set<" type then "new Set([" ++ ", ".intercalate items ++ "])"
    else "[" ++ ", ".intercalate items ++ "]"
  | .openApi, _, items => "[" ++ ", ".intercalate items ++ "]"

/-- A map of a type. -/
def mapLiteral : Language → String → List (String × String) → String
  | .go, type, entries =>
    Text.dropLeading '*' type ++ "\x7b" ++
      ", ".intercalate (entries.map fun e => e.1 ++ ": " ++ e.2) ++ "\x7d"
  | .typescript, _, entries =>
    "\x7b " ++ ", ".intercalate (entries.map fun e => "[" ++ e.1 ++ "]: " ++ e.2) ++ " \x7d"
  | .openApi, _, entries =>
    "\x7b" ++ ", ".intercalate (entries.map fun e => e.1 ++ ": " ++ e.2) ++ "\x7d"

/-- The name of an enum value without the name of its enum. -/
def memberName (enumName valueName : String) : String :=
  ((Text.after? enumName valueName).bind (Text.after? "_")).getD valueName

/-- A reference to an enum value. -/
def enumValue : Language → Option String → String → String → String
  | .go, qualifier, _, valueName => qualify qualifier valueName
  | .typescript, qualifier, enumName, valueName =>
    qualify qualifier enumName ++ "." ++ memberName enumName valueName
  | .openApi, _, enumName, valueName => Text.quote (memberName enumName valueName)

end IdlScope.Language

import IdlScope.Naming.Identifier

/-!
# Word case — how properties are spelled

A property is spelled as in the source, in snake case or in lower camel case.

A new word starts at an upper-case character that follows a lower-case character or a
digit, or that ends a run of capitals (`HTTPRequest` is `http_request`). Lower camel case is
snake case with the words joined again.
-/

namespace IdlScope

namespace Naming

/-- Does a word start at `c`, between the character before it and the text after it? -/
def startsWord (before : Option Char) (c : Char) (rest : List Char) : Bool :=
  Unicode.isUpper c &&
    match before with
    | none => false
    | some p =>
      Unicode.isLower p || p.isDigit || (Unicode.isUpper p && rest.head?.any Unicode.isLower)

/-- The snake case of what follows the character `before`. -/
def snakeFrom : Option Char → List Char → List Char
  | _, [] => []
  | before, c :: rest =>
    (if startsWord before c rest then ['_'] else []) ++ Unicode.lower c ++ snakeFrom (some c) rest

/-- `GetUserIP` becomes `get_user_ip`. -/
def snakeCase (s : String) : String :=
  String.ofList (snakeFrom none s.toList)

/-- `GetUserIP` becomes `getUserIp`. -/
def lowerCamelCase (s : String) : String :=
  match words (snakeFrom none s.toList) with
  | [] => ""
  | first :: rest => String.ofList (first ++ rest.flatMap upperFirstChars)

end Naming

/-! ## Styles -/

/-- How the properties of a structure are spelled. -/
inductive PropertyNaming where
  /-- As in the source. -/
  | asWritten
  | snakeCase
  | lowerCamelCase
  deriving DecidableEq

namespace PropertyNaming

/-- How the style is spelled in answers. -/
def spelling : PropertyNaming → String
  | .asWritten => "original"
  | .snakeCase => "snake_case"
  | .lowerCamelCase => "lower_camel_case"

/-- The style that an option names. -/
def ofSpelling? : String → Option PropertyNaming
  | "original" => some .asWritten
  | "snake" => some .snakeCase
  | "snake_case" => some .snakeCase
  | "lower_camel" => some .lowerCamelCase
  | "lower_camel_case" => some .lowerCamelCase
  | _ => none

@[simp] theorem ofSpelling?_spelling (p : PropertyNaming) : ofSpelling? p.spelling = some p := by
  cases p <;> rfl

/-- A source name in the style. -/
def spell : PropertyNaming → String → String
  | .asWritten, s => s
  | .snakeCase, s => Naming.snakeCase s
  | .lowerCamelCase, s => Naming.lowerCamelCase s

end PropertyNaming

end IdlScope

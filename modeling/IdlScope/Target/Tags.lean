import IdlScope.Idl.Declaration
import IdlScope.Options

/-!
# Field types and binding tags — what stands behind the name of a field

The type of a field is that of its values, marked where the field may be unset. Only one of the
languages has tags as well, which bind the field to its wire names: a tag gives the name, number
and requiredness of the field, and its name in JSON.
-/

namespace IdlScope

/-! ## Types -/

namespace Language

/-- Has an optional field of the category to be behind a pointer, to tell that it is unset? -/
def needsPointer (underlying : Category) : Bool :=
  (underlying.isBase && underlying != .binary) || underlying == .enum

/-- A type as the type of a field. -/
def fieldType : Language → String → Category → Bool → String
  | .go, text, underlying, optional =>
    if optional && needsPointer underlying && !Text.startsWith "*" text then "*" ++ text else text
  | .typescript, text, _, optional => if optional then text ++ " | undefined" else text
  | .openApi, text, _, _ => text

end Language

/-! ## Tags -/

/-- The word for a requiredness in a tag; nothing is written for the default. -/
def Requiredness.tagWord : Requiredness → String
  | .default => ""
  | .required => "required"
  | .optional => "optional"

/-- The tags of a field, where the language has tags. -/
def Language.bindingTags (l : Language) (wireName : String) (id : Int) (word : String)
    (omitEmpty : Bool) : Option String :=
  match l with
  | .go =>
    let wire := wireName ++ "," ++ toString id ++ (if word = "" then "" else "," ++ word)
    let json := if omitEmpty then wireName ++ ",omitempty" else wireName
    some ("thrift:\"" ++ wire ++ "\" json:\"" ++ json ++ "\"")
  | .typescript | .openApi => none

end IdlScope

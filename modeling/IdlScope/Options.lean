import IdlScope.Diagnostic
import IdlScope.Naming.WordCase
import IdlScope.Text.Segments

/-!
# Options — how a run is told what to generate

Options come as `name=value`, and a bare name is the same as a name with an empty value.
They are read in order, so a later option overrides an earlier one. An unknown name is
reported and ignored; a bad value of a known name ends the reading.
-/

namespace IdlScope

/-- The language that a run writes. -/
inductive Language where
  | go
  | typescript
  | openApi
  deriving DecidableEq

namespace Language

/-- How the language is spelled in answers. -/
def spelling : Language → String
  | .go => "go"
  | .typescript => "typescript"
  | .openApi => "openapi"

/-- The language that an option names. -/
def ofSpelling? : String → Option Language
  | "go" => some .go
  | "golang" => some .go
  | "ts" => some .typescript
  | "typescript" => some .typescript
  | "openapi" => some .openApi
  | _ => none

@[simp] theorem ofSpelling?_spelling (l : Language) : ofSpelling? l.spelling = some l := by
  cases l <;> rfl

/-- The name of the language in one-line summaries. -/
def title : Language → String
  | .go => "Go"
  | .typescript => "TypeScript"
  | .openApi => "OpenApi"

end Language

/-- What a run is told to generate. -/
structure Options where
  language : Language := .go
  /-- Give structures a comparison method, and one for each field. -/
  deepEqual : Bool := false
  /-- Give fields a setter. -/
  setters : Bool := true
  /-- Give structures a method that tells whether unknown fields are carried. -/
  keepUnknownFields : Bool := false
  /-- Arrange the fields of declared structures by alignment. -/
  reorderFields : Bool := false
  /-- Refuse boolean annotations that are neither `true` nor `false`. -/
  checkAnnotations : Bool := false
  /-- Write binding tags for fields. -/
  bindingTags : Bool := true
  /-- Keep declared names apart from the names of helpers. -/
  compatibleNames : Bool := false
  /-- Spell nested fields by the name of their type. -/
  nestedNames : Bool := false
  /-- Mark the structures that are aliases. -/
  markAliases : Bool := false
  /-- Write enum values by their allocated names. -/
  typedEnumText : Bool := false
  /-- Build root files side by side; results do not depend on it. -/
  parallel : Bool := false
  propertyNaming : PropertyNaming := .lowerCamelCase
  /-- The path that import paths start with. -/
  packagePrefix : String := ""
  deriving DecidableEq

/-- Why options were refused. -/
inductive OptionError where
  | notBoolean (name value : String)
  | unknownLanguage (value : String)
  | unknownNaming (value : String)
  deriving DecidableEq

namespace OptionError

/-- What is said about the refusal. -/
def message : OptionError → String
  | .notBoolean name value =>
    "option '" ++ name ++ "' expects true or false, got '" ++ value ++ "'"
  | .unknownLanguage value => "unknown target language '" ++ value ++ "'"
  | .unknownNaming value => "unknown property naming style '" ++ value ++ "'"

end OptionError

namespace Options

/-- An option cut at its first `=`. -/
def splitOption (arg : String) : String × String :=
  let name := arg.toList.takeWhile (· != '=')
  (String.ofList name, String.ofList (arg.toList.drop (name.length + 1)))

/-- The truth of a value: an empty one is true. -/
def readSwitch (name value : String) : Except OptionError Bool :=
  if value = "" ∨ value = "true" then .ok true
  else if value = "false" then .ok false
  else .error (.notBoolean name value)

/-- What a boolean option does. -/
def switch? : String → Option (Bool → Options → Options)
  | "gen_deep_equal" => some fun b o => { o with deepEqual := b }
  | "generate_setter" => some fun b o => { o with setters := b }
  | "keep_unknown_fields" => some fun b o => { o with keepUnknownFields := b }
  | "reorder_fields" => some fun b o => { o with reorderFields := b }
  | "use_option" => some fun b o => { o with checkAnnotations := b }
  | "check_option_grammar" => some fun b o => { o with checkAnnotations := b }
  | "gen_binding_tags" => some fun b o => { o with bindingTags := b }
  | "compatible_names" => some fun b o => { o with compatibleNames := b }
  | "enable_nested_struct" => some fun b o => { o with nestedNames := b }
  | "no_alias_type_reflection_method" => some fun b o => { o with markAliases := b }
  | "typed_enum_string" => some fun b o => { o with typedEnumText := b }
  | "parallel_files" => some fun b o => { o with parallel := b }
  | "snake_style_property_name" =>
    some fun b o => if b then { o with propertyNaming := .snakeCase } else o
  | "lower_camel_case_property_name" =>
    some fun b o => if b then { o with propertyNaming := .lowerCamelCase } else o
  | _ => none

/-- Sets a named option; nothing comes back for an unknown name. -/
def set? (o : Options) (name value : String) : Option (Except OptionError Options) :=
  if name = "language" ∨ name = "target" then
    some <| match Language.ofSpelling? value with
      | some language => .ok { o with language := language }
      | none => .error (.unknownLanguage value)
  else if name = "property_naming" then
    some <| match PropertyNaming.ofSpelling? value with
      | some style => .ok { o with propertyNaming := style }
      | none => .error (.unknownNaming value)
  else if name = "package_prefix" then
    some (.ok { o with packagePrefix := Text.dropTrailing '/' value })
  else
    (switch? name).map fun act => (readSwitch name value).map (act · o)

/-- Reads one more option into the options and warnings so far. -/
def readOne (sofar : Options × List Diagnostic) (arg : String) :
    Except OptionError (Options × List Diagnostic) :=
  if arg = "" then .ok sofar
  else
    let (name, value) := splitOption arg
    match sofar.1.set? name value with
    | some outcome => outcome.map (·, sofar.2)
    | none => .ok (sofar.1, sofar.2 ++ [.unknownOption name])

/-- The options that a list of arguments gives, and a warning for each unknown name. -/
def ofArgs (args : List String) : Except OptionError (Options × List Diagnostic) :=
  args.foldlM readOne ({}, [])

end Options

end IdlScope

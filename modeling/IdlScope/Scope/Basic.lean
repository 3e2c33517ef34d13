import IdlScope.Diagnostic
import IdlScope.Scope.Expansion
import IdlScope.Scope.Linkage
import IdlScope.Scope.Structure
import IdlScope.Text.Quoted

/-!
# Scopes — the view of a file that code is generated from

A scope gives every declaration of a file its name, and every field, typedef, constant and
function its types and values in the words of the output language. Scopes are built once
and kept in a library, by the name of the file.

Types here come in pairs: a `Named…` type is what is known once names are allocated, and the
type that extends it adds the texts of types and values.
-/

namespace IdlScope

/-- A text of the output with the import aliases that it was written with. -/
structure Rendered where
  text : String
  qualifiers : List String
  deriving DecidableEq

/-! ## Fields -/

/-- What an accessor of a field does. -/
inductive AccessorRole where
  | get
  | set
  | isSet
  | read
  | write
  | deepEqual
  deriving DecidableEq

/-- A method of a structure that belongs to one of its fields. -/
structure Accessor where
  role : AccessorRole
  name : String
  deriving DecidableEq

/-- Where a field comes from that stands in place of another. -/
structure Origin where
  /-- The field as it is declared. -/
  child : FieldDecl
  /-- The name of the field that was expanded. -/
  parent : String
  /-- The file of the structure that declares the field. -/
  home : Home

/-- A field with its names. -/
structure NamedField where
  /-- The declaration, with the field's number in this structure. -/
  decl : FieldDecl
  /-- The name of its storage. -/
  name : String
  propertyName : String
  accessors : List Accessor
  /-- Is it spelled by the name of its type? -/
  isNested : Bool
  /-- Does it hold the response of a function? -/
  isResponse : Bool
  origin : Option Origin
  tags : Option String

namespace NamedField

/-- The name of the accessor with a role, if the field has it. -/
def accessor? (f : NamedField) (role : AccessorRole) : Option String :=
  (f.accessors.find? (·.role == role)).map Accessor.name

end NamedField

/-- The texts of a field's types and value. -/
structure Typing where
  /-- The type of the field. -/
  type : Rendered
  /-- The type of its value when it is set. -/
  plainType : Rendered
  /-- The value of the field if nobody sets it. -/
  value : Rendered
  /-- Is the value declared? If not, it is the zero of the type. -/
  hasDefault : Bool
  deriving DecidableEq

/-- A field of a finished scope. -/
structure Field extends NamedField, Typing

/-- The fields in place of the first declared field with a name. -/
def Structure.fieldsOf (s : Structure Field) (field : String) : List Field :=
  ((s.slots.find? (·.field.decl.name == field)).map Slot.children).getD []

/-! ## Other declarations -/

/-- What a name of a file declares. -/
inductive DeclKind where
  | structLike (kind : StructKind)
  | enum
  | typedef
  | constant
  | service
  deriving DecidableEq

/-- How the kind is spelled. -/
def DeclKind.spelling : DeclKind → String
  | .structLike kind => kind.spelling
  | .enum => "enum"
  | .typedef => "typedef"
  | .constant => "constant"
  | .service => "service"

/-- A declaration as a look-up finds it: its allocated name and its kind. -/
structure Declared where
  name : String
  kind : DeclKind
  deriving DecidableEq

/-- A value of an enum; `literal` is its text when it is converted to a string. -/
structure EnumValue where
  decl : EnumValueDecl
  name : String
  literal : String

/-- An enum with the names of its values. -/
structure Enum where
  decl : EnumDecl
  name : String
  values : List EnumValue

/-- The value with a source name. -/
def Enum.value? (e : Enum) (source : String) : Option EnumValue :=
  e.values.find? (·.decl.name == source)

/-- A typedef with its name. -/
structure NamedTypedef where
  decl : TypedefDecl
  name : String

/-- A typedef with the type it stands for. -/
structure Typedef extends NamedTypedef where
  type : Rendered

/-- A constant with its name. -/
structure NamedConstant where
  decl : ConstantDecl
  name : String

/-- A constant with its type and value. -/
structure Constant extends NamedConstant where
  type : Rendered
  init : Rendered

/-- An argument of a function, or an exception that it throws, with its name. -/
structure NamedParam where
  name : String
  source : String

/-- A parameter with its type. -/
structure Param extends NamedParam where
  type : Rendered

/-- A function with its names. -/
structure NamedFunction where
  decl : FunctionDecl
  name : String
  /-- The names of everything that the function declares, arguments and exceptions last. -/
  params : NameTable
  /-- The structure of its arguments. -/
  argsStruct : String
  /-- The structure of its response and exceptions, unless it is oneway. -/
  resultStruct : Option String
  argumentNames : List NamedParam
  throwNames : List NamedParam

/-- A function with its types. -/
structure Function extends NamedFunction where
  arguments : List Param
  response : Option Rendered
  throws : List Param

/-- The name of the client of a service. -/
def clientOf (name : String) : String := name ++ "Client"

/-- The name of the processor of a service. -/
def processorOf (name : String) : String := name ++ "Processor"

/-- A service with its names. -/
structure NamedService where
  decl : ServiceDecl
  name : String
  namedFunctions : List NamedFunction

namespace NamedService

/-- The name of the service's client. -/
def clientName (s : NamedService) : String := clientOf s.name

/-- The name of the service's processor. -/
def processorName (s : NamedService) : String := processorOf s.name

end NamedService

/-- The service that another one extends. -/
structure ServiceBase where
  name : String
  qualifier : Option String
  home : Home
  deriving DecidableEq

/-- A service with its base and the types of its functions. -/
structure Service extends NamedService where
  base : Option ServiceBase
  functions : List Function

/-! ## Scopes -/

/-- The finished view of a file. -/
structure Scope where
  document : Document
  linkage : Linkage
  /-- The names that the file declares at its top level, by key. -/
  globals : NameTable
  /-- The declarations by source name. -/
  declared : Table Declared
  structures : StructureLists Field
  enums : List Enum
  typedefs : List Typedef
  constants : List Constant
  services : List Service
  /-- Which fields expand, for the structures with a field that does. -/
  expansions : Table ExpansionRecord
  diagnostics : List Diagnostic

namespace Scope

/-- The name of the file. -/
def filename (s : Scope) : String := s.document.filename

/-- The output package of the file. -/
def package (s : Scope) : Package := s.linkage.package

/-- The first structure with a source name. -/
def structure? (s : Scope) (source : String) : Option (Structure Field) :=
  s.structures.find? source

/-- The first enum with a source name. -/
def enum? (s : Scope) (source : String) : Option Enum :=
  s.enums.find? (·.decl.name == source)

/-- The first service with a source name. -/
def service? (s : Scope) (source : String) : Option Service :=
  s.services.find? (·.decl.name == source)

/-- Does the field of the structure expand? -/
def isFieldExpanded (s : Scope) (structureName field : String) : Bool :=
  (s.expansions.get? structureName).any (·.isExpanded field)

/-- The expansion record of a structure, with the structure. -/
def expansion? (s : Scope) (structureName : String) : Option (ExpansionRecord × Structure Field) :=
  (s.expansions.get? structureName).bind fun record =>
    (s.structure? structureName).map fun st => (record, st)

/-- A one-line description of a scope under the number of its file. -/
def summary (s : Scope) (number : Nat) : String :=
  "Scope \x7b file: FileId(" ++ toString number ++ "), filename: " ++ Text.shown s.filename ++
    ", namespace: " ++ Text.shown s.package.domain ++
    ", includes: " ++ toString s.linkage.includes.length ++
    ", structures: " ++ toString s.structures.all.length ++
    ", enums: " ++ toString s.enums.length ++
    ", services: " ++ toString s.services.length ++ " \x7d"

end Scope

/-- A one-line description of an include. -/
def Include.summary (i : Include) : String :=
  "Include \x7b package_name: " ++ Text.shown i.packageName ++
    ", import_path: " ++ Text.shown i.path ++
    ", same_package: " ++ (if i.samePackage then "true" else "false") ++ " \x7d"

/-- A one-line description of the place of an include. -/
def Include.summaryOf : Option Include → String
  | none => "None"
  | some i => "Some(" ++ i.summary ++ ")"

/-! ## Libraries -/

/-- The scopes built so far. -/
structure Library where
  /-- The names of all files met, in order of first use; the place of a file is its number. -/
  files : List String
  /-- The finished scopes in the order they were finished. -/
  scopes : List Scope

namespace Library

/-- No file yet. -/
def empty : Library := ⟨[], []⟩

/-- The scope of a file. -/
def scope? (l : Library) (file : String) : Option Scope :=
  l.scopes.find? (·.filename == file)

/-- The number of a file, which is the next free one for a new file. -/
def number (l : Library) (file : String) : Nat :=
  l.files.idxOf file

/-- The library that knows a file. -/
def meet (l : Library) (file : String) : Library :=
  if file ∈ l.files then l else { l with files := l.files ++ [file] }

/-- Adds a finished scope. -/
def add (l : Library) (s : Scope) : Library :=
  { l with scopes := l.scopes ++ [s] }

end Library

end IdlScope

import IdlScope.Scope.Resolution
import IdlScope.Target.ValueText

/-!
# Rendering — types and values in the words of the output

Rendering turns expressions into text. Where the text mentions another file, that file has
to be imported, so rendering changes the linkage of the file being built, and it notes the
aliases that the text mentions. It cannot fail.
-/

namespace IdlScope

/-- What rendering goes by: the language and the files built so far. -/
structure RenderEnv where
  language : Language
  library : Library

/-- What rendering changes: the linkage, and the aliases mentioned in the text at hand. -/
structure RenderState where
  linkage : Linkage
  qualifiers : List String

/-- A step of rendering. -/
abbrev Render := StateM RenderState

namespace RenderEnv

/-- The qualifier of names from a home, and the linkage after asking for it. -/
def qualifierOf (e : RenderEnv) (linkage : Linkage) : Home → Option String × Linkage
  | .here => (none, linkage)
  | .foreign file =>
    match e.library.scope? file with
    | none => (none, linkage)
    | some s => linkage.qualifierFor e.language s.document s.package

/-- Adds an alias that is not there yet. -/
def note (aliases : List String) : Option String → List String
  | none => aliases
  | some name => if name ∈ aliases then aliases else aliases ++ [name]

/-- The qualifier of names from a home, noted if there is one. -/
def qualifier (e : RenderEnv) (home : Home) : Render (Option String) := fun d =>
  let (q, linkage) := e.qualifierOf d.linkage home
  (q, ⟨linkage, note d.qualifiers q⟩)

/-- The text of a type. -/
def typeText (e : RenderEnv) : TypeExpr → Render String
  | .base c => pure (e.language.baseType c)
  | .list t => do return e.language.listType (← e.typeText t)
  | .set t => do return e.language.setType (← e.typeText t)
  | .map k v => do
    let key ← e.typeText k
    let value ← e.typeText v
    return e.language.mapType key value
  | .declared home name underlying => do
    let q ← e.qualifier home
    return e.language.declaredType q name underlying
termination_by structural t => t

mutual

/-- The text of a value of a type, given the text of the type. -/
def valueText (e : RenderEnv) (t : TypeExpr) (text : String) : ValueExpr → Render String
  | .int v => pure <|
    match t.underlying with
    | .bool => Language.boolLiteral (v != 0)
    | .double => Language.doubleLiteral (Float.ofInt v)
    | _ => e.language.intLiteral v text
  | .double v => pure (Language.doubleLiteral v)
  | .literal s => pure (Text.quote s)
  | .bool b => pure (Language.boolLiteral b)
  | .enumValue home enumName valueName => do
    let q ← e.qualifier home
    return e.language.enumValue q enumName valueName
  | .constant home name => do
    let q ← e.qualifier home
    return qualify q name
  | .list items => do
    let itemText ← e.typeText t.item
    return e.language.listLiteral text (← valueTexts e t.item itemText items)
  | .map entries => do
    let keyType ← e.typeText t.keyAndValue.1
    let valueType ← e.typeText t.keyAndValue.2
    return e.language.mapLiteral text (← entryTexts e t.keyAndValue keyType valueType entries)
termination_by structural v => v

/-- The texts of the items of a list. -/
def valueTexts (e : RenderEnv) (t : TypeExpr) (text : String) :
    List ValueExpr → Render (List String)
  | [] => pure []
  | v :: vs => do
    let first ← valueText e t text v
    return first :: (← valueTexts e t text vs)
termination_by structural vs => vs

/-- The texts of the entries of a map. -/
def entryTexts (e : RenderEnv) (t : TypeExpr × TypeExpr) (keyType valueType : String) :
    List (ValueExpr × ValueExpr) → Render (List (String × String))
  | [] => pure []
  | entry :: entries => do
    let first ← entryText e t keyType valueType entry
    return first :: (← entryTexts e t keyType valueType entries)
termination_by structural entries => entries

/-- The texts of the key and the value of an entry. -/
def entryText (e : RenderEnv) (t : TypeExpr × TypeExpr) (keyType valueType : String) :
    ValueExpr × ValueExpr → Render (String × String)
  | (k, v) => do
    let key ← valueText e t.1 keyType k
    return (key, ← valueText e t.2 valueType v)
termination_by structural entry => entry

end

/-- Renders one text, starting without noted aliases. -/
def rendered (step : Render String) (linkage : Linkage) : Rendered × Linkage :=
  let (text, d) := step ⟨linkage, []⟩
  (⟨text, d.qualifiers⟩, d.linkage)

/-- A type as text. -/
def type (e : RenderEnv) (t : TypeExpr) (linkage : Linkage) : Rendered × Linkage :=
  rendered (e.typeText t) linkage

/-- A value of a type as text. -/
def value (e : RenderEnv) (t : TypeExpr) (text : String) (v : ValueExpr) (linkage : Linkage) :
    Rendered × Linkage :=
  rendered (e.valueText t text v) linkage

end RenderEnv

end IdlScope

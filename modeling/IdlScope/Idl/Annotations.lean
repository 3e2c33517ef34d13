import IdlScope.Text.Segments

/-!
# Annotations — the options written on a declaration

An annotation list is kept as it was given, in order; a key may come several times and the
first entry is the one that counts. A boolean annotation is read as a `Flag`: it is only
true when it has exactly one value and that value spells `true` in any case.
-/

namespace IdlScope

/-- One annotation key with the values given for it. -/
structure AnnotationEntry where
  key : String
  values : List String
  deriving DecidableEq

/-- The annotations of a declaration in source order. -/
abbrev Annotations := List AnnotationEntry

namespace Annotations

/-- The values of the first entry of a key. -/
def values? (as : Annotations) (key : String) : Option (List String) :=
  (as.find? (·.key == key)).map AnnotationEntry.values

/-- Adds a value to the first entry of a key, or as a new entry at the end. -/
def push : Annotations → String → String → Annotations
  | [], key, value => [⟨key, [value]⟩]
  | a :: as, key, value =>
    if a.key = key then { a with values := a.values ++ [value] } :: as
    else a :: push as key value

end Annotations

/-! ## Boolean annotations -/

/-- A boolean annotation as written. -/
inductive Flag where
  | unset
  | true
  | false
  /-- Several values were given; it counts as false. -/
  | ambiguous (count : Nat)
  deriving DecidableEq

namespace Flag

/-- Reads the values of a boolean annotation. -/
def ofValues : List String → Flag
  | [] => .unset
  | [value] => if Text.eqIgnoringCase value "true" then .true else .false
  | values => .ambiguous values.length

/-- Reads a boolean annotation. -/
def read (as : Annotations) (key : String) : Flag :=
  ofValues ((as.values? key).getD [])

/-- Does the flag hold? -/
def isTrue (f : Flag) : Bool :=
  f == .true

end Flag

/-! ## The recognized keys -/

/-- On a field: expand the structure it refers to. -/
def expandKey : String := "thrift.expand"

/-- On a structure: expand every field that refers to it. -/
def expandableKey : String := "expandable"

/-- On a field: spell it by the name of its type. -/
def nestedKey : String := "thrift.nested"

/-- On a structure: it is an alias. -/
def aliasKey : String := "thrift.is_alias"

end IdlScope

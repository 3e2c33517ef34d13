import IdlScope.Idl.Declaration
import IdlScope.Table

/-!
# Expansion — when a field is replaced by the fields of its structure

A field whose type is a structure expands if it is annotated so, or if the structure asks
for it. The fields that come in its place are numbered by the number of the field they
replace: a child `c` of a parent `p` becomes `1000 * p + c`, as far as the numbers of fields
reach.
-/

namespace IdlScope

/-- Does the structure ask every field that refers to it to expand? -/
def StructDecl.isExpandable (s : StructDecl) : Bool :=
  s.expandable.getD (Flag.read s.annotations expandableKey).isTrue

/-- Does the field expand, given the structure that its type refers to? -/
def FieldDecl.expandsInto (f : FieldDecl) (referenced : Option StructDecl) : Bool :=
  f.type.category.isStructLike &&
    referenced.any fun s => (Flag.read f.annotations expandKey).isTrue || s.isExpandable

/-! ## Numbers of expanded fields -/

/-- Is the number one that a field may have? -/
def isFieldId (n : Int) : Bool :=
  -2147483648 ≤ n && n ≤ 2147483647

/-- The factor between the numbers of a parent and of its children. -/
def idFactor : Int := 1000

/-- The number of an expanded child, unless it or the number its parent lends is out of range. -/
def expandedId? (child parent : Int) : Option Int :=
  let base := parent * idFactor
  if isFieldId base && isFieldId (base + child) then some (base + child) else none

/-! ## Records -/

/-- Which fields of a structure expand, by the name of the field. -/
abbrev ExpansionRecord := Table Bool

/-- Does the record say that the field expands? -/
def ExpansionRecord.isExpanded (record : ExpansionRecord) (field : String) : Bool :=
  (record.get? field).getD false

end IdlScope

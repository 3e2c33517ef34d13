import IdlScope.Naming.Identifier

/-!
# Parameter names and field numbers in names

A parameter is spelled with a lower-case first character. Where that is a keyword, an
underscore is put in front. No keyword has an underscore in it, so what comes of that is none
(`isKeyword_parameterName`), however many underscores are put behind it (`isKeyword_push`).
-/

namespace IdlScope.Naming

/-- The keywords that no parameter may be called by. -/
def keywords : List String := [
  "break", "case", "chan", "const", "continue", "default", "defer", "else", "fallthrough",
  "for", "func", "go", "goto", "if", "import", "interface", "map", "package", "range",
  "return", "select", "struct", "switch", "type", "var"]

/-- Is the name a keyword? -/
def isKeyword (s : String) : Bool :=
  keywords.contains s

/-- The parameter name of an exported name. -/
def parameterName (exported : String) : String :=
  let name := lowerFirst exported
  if isKeyword name then "_" ++ name else name

/-! ## Names that are no keywords -/

theorem isKeyword_of_underscore {name : String} (h : '_' ∈ name.toList) :
    isKeyword name = false := by
  have hkeywords : ∀ word ∈ keywords, '_' ∉ word.toList := by decide
  rw [← Bool.not_eq_true]
  intro hkeyword
  exact hkeywords name (List.contains_iff_mem.mp hkeyword) h

/-- A name that gives way is no keyword. -/
theorem isKeyword_push (name : String) : isKeyword (name.push '_') = false := by
  refine isKeyword_of_underscore ?_
  rw [String.toList_push]
  exact List.mem_append_right _ (List.mem_singleton_self _)

/-- What a parameter asks for is no keyword. -/
theorem isKeyword_parameterName (exported : String) :
    isKeyword (parameterName exported) = false := by
  rw [parameterName]
  by_cases hkeyword : isKeyword (lowerFirst exported) = true
  · rw [if_pos hkeyword]
    refine isKeyword_of_underscore ?_
    rw [String.toList_append]
    exact List.mem_append_left _ (List.mem_singleton_self _)
  · rw [if_neg hkeyword]
    exact Bool.eq_false_iff.mpr hkeyword

/-! ## Field numbers -/

/-- A field number as part of a name; a negative one is marked by an underscore. -/
def idSuffix (id : Int) : String :=
  if id < 0 then "_" ++ toString id.natAbs else toString id.natAbs

end IdlScope.Naming

import IdlScope.Run

/-!
# Outlines — the plainest output

An outline names the package of a file, its used imports, and its structures with the
number, name, type and value of every field. It is what a renderer makes of a scope when
nothing is to be compiled.
-/

namespace IdlScope.Outline

/-- The line of the package. -/
def packageLine (s : Scope) : String :=
  "package " ++ s.package.preferredAlias

/-- The line of an import. -/
def importLine (i : Import) : String :=
  "\nimport " ++ i.name ++ " " ++ i.path

/-- The line of a field. -/
def fieldLine (f : Field) : String :=
  "\n  " ++ toString f.decl.id ++ " " ++ f.name ++ " " ++ f.type.text ++ " = " ++ f.value.text

/-- The lines of a structure. -/
def structureLines (s : Structure Field) : String :=
  "\ntype " ++ s.name ++ String.join (s.flattenedFields.map fieldLine)

/-- The whole outline. -/
def text (s : Scope) : String :=
  packageLine s ++ String.join (s.linkage.imports.used.map importLine) ++
    String.join (s.structures.all.map structureLines)

/-- Writes outlines and gives up on the refused files after their first line. -/
def renderer (refused : List String) : Renderer := fun s buffer =>
  if s.filename ∈ refused then (false, buffer ++ packageLine s) else (true, buffer ++ text s)

end IdlScope.Outline

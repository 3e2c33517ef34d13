/-!
# Diagnostics — what a build worked around

A diagnostic tells about input that was ignored or defaulted without stopping the build.
Warnings carry codes that start with `W`, information carries codes that start with `I`.
-/

namespace IdlScope

/-- How much a diagnostic matters. -/
inductive Severity where
  | warning
  | info
  deriving DecidableEq

/-- A remark about one file, or about the whole run when the file is empty. -/
structure Diagnostic where
  file : String
  severity : Severity
  code : Option String
  owner : Option String
  message : String
  deriving DecidableEq

namespace Diagnostic

/-- A warning without code and owner. -/
def warning (file message : String) : Diagnostic :=
  ⟨file, .warning, none, none, message⟩

/-- The boolean option `key` of `owner` was given several values. -/
def multipleValues (file owner key : String) (count : Nat) : Diagnostic :=
  ⟨file, .warning, some "W0001", some owner,
    "annotation '" ++ key ++ "' on '" ++ owner ++ "' has " ++ toString count ++
      " values; ignoring it"⟩

/-- The structure `owner` is neither a struct nor a union nor an exception. -/
def unknownCategory (file owner category : String) : Diagnostic :=
  ⟨file, .warning, some "W0002", some owner,
    "structure '" ++ owner ++ "' has unknown category '" ++ category ++ "'"⟩

/-- A generator option was not recognized. -/
def unknownOption (name : String) : Diagnostic :=
  ⟨"", .warning, some "W0003", none, "unknown option '" ++ name ++ "'"⟩

/-- Reordering changed the layout of a structure from `before` to `after` bytes. -/
def fieldsReordered (file owner : String) (before after : Nat) : Diagnostic :=
  ⟨file, .info, some "I0001", some owner,
    "arranged fields of '" ++ owner ++ "': " ++ toString before ++ " -> " ++ toString after ++
      " bytes"⟩

/-- The number of warnings in a list. -/
def warningCount (ds : List Diagnostic) : Nat :=
  ds.countP (·.severity == .warning)

end Diagnostic

end IdlScope

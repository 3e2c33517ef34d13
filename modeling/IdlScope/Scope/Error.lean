import IdlScope.Naming.NameTable

/-!
# Errors — why a file has no scope

A build error belongs to one file. When an included file fails, every file on the way to it
fails with an error that names the include and carries the error inside; only a circle of
includes is passed on as it is, because it belongs to no single file.
-/

namespace IdlScope

/-- A type or a value that leads to no declaration. -/
inductive ResolveError where
  | unresolvedType (file owner type : String)
  | unresolvedValue (file owner value : String)
  /-- A container type without the type of its elements. -/
  | malformedType (file owner type : String)
  deriving DecidableEq

namespace ResolveError

/-- What is said about the error. -/
def message : ResolveError → String
  | .unresolvedType file owner type =>
    file ++ ": cannot resolve type '" ++ type ++ "' of '" ++ owner ++ "'"
  | .unresolvedValue file owner value =>
    file ++ ": cannot resolve value '" ++ value ++ "' used by '" ++ owner ++ "'"
  | .malformedType file owner type =>
    file ++ ": container type '" ++ type ++ "' of '" ++ owner ++ "' is missing its element type"

end ResolveError

/-- Why the scope of a file could not be built. -/
inductive BuildError where
  | nameConflict (file : String) (conflict : NameConflict)
  | invalidIdentifier (file raw : String)
  | malformedFlag (file owner key value : String)
  /-- An expanded field has the number of another field. -/
  | repeatedId (file structureName field : String) (id : Int)
  /-- The number of an expanded field is out of range. -/
  | idOutOfRange (file structureName field : String)
  /-- A chain of includes that comes back to a file of its own. -/
  | circularInclude (chain : List String)
  | failedInclude (file path : String) (cause : BuildError)
  | resolve (error : ResolveError)
  deriving DecidableEq

namespace BuildError

/-- What is said about the error. -/
def message : BuildError → String
  | .nameConflict file conflict => file ++ ": " ++ conflict.message
  | .invalidIdentifier file raw => file ++ ": '" ++ raw ++ "' is not a valid identifier"
  | .malformedFlag file owner key value =>
    file ++ ": annotation " ++ key ++ "=\"" ++ value ++ "\" on '" ++ owner ++ "' is malformed"
  | .repeatedId file structureName field id =>
    file ++ ": expanded field '" ++ field ++ "' of '" ++ structureName ++ "' reuses field id " ++
      toString id
  | .idOutOfRange file structureName field =>
    file ++ ": adjusted id of '" ++ field ++ "' in '" ++ structureName ++ "' overflows i32"
  | .circularInclude chain => "circular include: " ++ " -> ".intercalate chain
  | .failedInclude file path cause =>
    file ++ ": failed to build include '" ++ path ++ "': " ++ cause.message
  | .resolve error => error.message

/-- The error that started it, inside all includes. -/
def root : BuildError → BuildError
  | .failedInclude _ _ cause => cause.root
  | e => e

/-- The error of a file whose include failed. -/
def through (file path : String) : BuildError → BuildError
  | .circularInclude chain => .circularInclude chain
  | e => .failedInclude file path e

end BuildError

end IdlScope

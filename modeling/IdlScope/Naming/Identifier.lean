import IdlScope.Text.Segments
import IdlScope.Unicode.CaseMap
import IdlScope.Unicode.IdentifierClass

/-!
# Identifiers — from a source name to an exported name

A source name becomes an identifier of the generated code by joining its words, each with
its first character in upper case (`get_user_by_id` becomes `GetUserById`). Names that the
generator makes up itself carry the mark `$`, which no identifier holds; `identify` drops
it, so `$getUser_args` becomes `GetUserArgs`.

Whatever `identify` accepts is an identifier, because the result is checked at the end
(`isIdentifier_of_identify`).
-/

namespace IdlScope.Naming

/-- Is the list of characters an identifier? -/
def isIdentifierChars : List Char → Bool
  | [] => false
  | c :: rest => (c == '_' || Unicode.isXidStart c) && rest.all Unicode.isXidContinue

/-- Is the text an identifier? -/
def isIdentifier (s : String) : Bool :=
  isIdentifierChars s.toList

/-- The characters with the first one in upper case. -/
def upperFirstChars : List Char → List Char
  | [] => []
  | c :: rest => Unicode.upper c ++ rest

/-- The text with its first character in upper case. -/
def upperFirst (s : String) : String :=
  String.ofList (upperFirstChars s.toList)

/-- The text with its first character in lower case. -/
def lowerFirst (s : String) : String :=
  match s.toList with
  | [] => ""
  | c :: rest => String.ofList (Unicode.lower c ++ rest)

/-! ## Made-up names -/

/-- The mark of made-up names and keys. -/
def mark : Char := '$'

/-- The made-up name with the given content. -/
def synthetic (key : String) : String :=
  String.ofList (mark :: key.toList)

/-- Is the name made up? -/
def isSynthetic (name : String) : Bool :=
  name.toList.head? == some mark

/-! ## Exported names -/

/-- Adds a word to an exported name; a word that starts with a digit is kept apart. -/
def appendWord (name word : List Char) : List Char :=
  let gap := if !name.isEmpty && (word.head?.any Char.isDigit) then ['_'] else []
  name ++ gap ++ upperFirstChars word

/-- The words of a source name. -/
def words (s : List Char) : List (List Char) :=
  (s.splitOn '_').filter (!·.isEmpty)

/-- The exported name of a source name, if it is an identifier. -/
def identify (raw : String) : Option String :=
  let name := (words (raw.toList.dropWhile (· == mark))).foldl appendWord []
  if isIdentifierChars name then some (String.ofList name) else none

theorem isIdentifier_of_identify {raw name : String} (h : identify raw = some name) :
    isIdentifier name = true := by
  simp only [identify] at h
  split at h
  · next valid =>
    cases h
    simpa [isIdentifier] using valid
  · cases h

end IdlScope.Naming

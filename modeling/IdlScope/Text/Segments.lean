/-!
# Segments — cutting a text at separators and at its ends

Names are cut at dots, paths at slashes, identifiers at underscores. Every function here
works on the list of characters and comes back to a text, so it computes in the kernel and
its laws are laws of lists.
-/

namespace IdlScope.Text

/-- The segments of a text between the separators; there is always at least one. -/
def split (sep : Char) (s : String) : List String :=
  (s.toList.splitOn sep).map String.ofList

/-- The text cut at its last separator: what stands before it, if there is one, and after it. -/
def splitLast (sep : Char) (s : String) : Option String × String :=
  let tail := s.toList.reverse.takeWhile (· != sep)
  match s.toList.reverse.drop tail.length with
  | [] => (none, s)
  | _ :: front => (some (String.ofList front.reverse), String.ofList tail.reverse)

/-- The text with one character put in place of another. -/
def substitute (old new : Char) (s : String) : String :=
  String.ofList (s.toList.map fun c => if c == old then new else c)

/-- The text without the leading run of a character. -/
def dropLeading (c : Char) (s : String) : String :=
  String.ofList (s.toList.dropWhile (· == c))

/-- The text without the trailing run of a character. -/
def dropTrailing (c : Char) (s : String) : String :=
  String.ofList (s.toList.reverse.dropWhile (· == c)).reverse

/-- Does the text begin with `head`? -/
def startsWith (head s : String) : Bool :=
  head.toList.isPrefixOf s.toList

/-- Does the text end with `tail`? -/
def endsWith (tail s : String) : Bool :=
  tail.toList.isSuffixOf s.toList

/-- The text after `head`, if it begins with it. -/
def after? (head s : String) : Option String :=
  if startsWith head s then some (String.ofList (s.toList.drop head.toList.length)) else none

/-- The text before `tail`, if it ends with it. -/
def before? (tail s : String) : Option String :=
  if endsWith tail s then
    some (String.ofList (s.toList.take (s.toList.length - tail.toList.length)))
  else none

/-- Equality of texts up to the case of ASCII letters. -/
def eqIgnoringCase (s t : String) : Bool :=
  s.toList.map Char.toLower == t.toList.map Char.toLower

theorem split_ne_nil (sep : Char) (s : String) : split sep s ≠ [] := by
  cases h : s.toList with
  | nil => simp [split, h]
  | cons c cs =>
    intro absurd
    simp only [split, List.map_eq_nil_iff] at absurd
    exact List.splitOn_ne_nil _ _ absurd

end IdlScope.Text

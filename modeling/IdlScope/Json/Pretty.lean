import IdlScope.Json.Value

/-!
# Pretty text — JSON data laid out on lines

Every item and every member stands on a line of its own, two blanks deeper than what holds
it; an empty array or object is written on the spot. A colon is followed by one blank.
-/

namespace IdlScope.Json.Value

/-- The start of a line at a given depth. -/
def newline (depth : Nat) : List Char :=
  '\n' :: List.replicate (2 * depth) ' '

/-- A string, or an empty one where the literal wrote no text. -/
def literal (s : Option String) : List Char :=
  Json.literal (s.getD "")

mutual

/-- The characters of a value whose first line stands at the given depth. -/
def layout (depth : Nat) : Value → List Char
  | .null => ['n', 'u', 'l', 'l']
  | .bool true => ['t', 'r', 'u', 'e']
  | .bool false => ['f', 'a', 'l', 's', 'e']
  | .number n => n.chars
  | .text s => literal s
  | .array [] => ['[', ']']
  | .array (v :: vs) =>
    '[' :: newline (depth + 1) ++ layout (depth + 1) v ++ layoutItems (depth + 1) vs ++
      newline depth ++ [']']
  | .object [] => ['\x7b', '\x7d']
  | .object (m :: ms) =>
    '\x7b' :: newline (depth + 1) ++ layoutMember (depth + 1) m ++ layoutMembers (depth + 1) ms ++
      newline depth ++ ['\x7d']
termination_by structural v => v

/-- The items after the first. -/
def layoutItems (depth : Nat) : List Value → List Char
  | [] => []
  | v :: vs => ',' :: newline depth ++ layout depth v ++ layoutItems depth vs
termination_by structural vs => vs

/-- One member of an object. -/
def layoutMember (depth : Nat) : Option String × Value → List Char
  | (key, v) => literal key ++ [':', ' '] ++ layout depth v
termination_by structural m => m

/-- The members after the first. -/
def layoutMembers (depth : Nat) : List (Option String × Value) → List Char
  | [] => []
  | m :: ms => ',' :: newline depth ++ layoutMember depth m ++ layoutMembers depth ms
termination_by structural ms => ms

end

/-- The text of a value on lines. -/
def pretty (v : Value) : String :=
  String.ofList (layout 0 v)

end IdlScope.Json.Value

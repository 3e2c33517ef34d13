import IdlScope.Json.Token

/-!
# Values — JSON data as it is written

A value keeps everything that its text says and a reader may care about: the order of the
members of an object, members that come twice, and numbers as numerals.

`Value.ofTokens?` reads a value from tokens. The fuel bounds the nesting of calls, and twice
the number of tokens is enough, because every second call takes a token.
-/

namespace IdlScope.Json

/-- JSON data. -/
inductive Value where
  | null
  | bool (value : Bool)
  | number (value : Numeral)
  | text (value : Option String)
  | array (items : List Value)
  | object (members : List (Option String × Value))

namespace Value

mutual

/-- A value and the tokens after it. -/
def read : Nat → List Token → Option (Value × List Token)
  | 0, _ => none
  | fuel + 1, tokens =>
    match tokens with
    | .null :: rest => some (.null, rest)
    | .bool b :: rest => some (.bool b, rest)
    | .number n :: rest => some (.number n, rest)
    | .text s :: rest => some (.text s, rest)
    | .openArray :: .closeArray :: rest => some (.array [], rest)
    | .openArray :: rest => do
      let (items, rest) ← readItems fuel rest
      return (.array items, rest)
    | .openObject :: .closeObject :: rest => some (.object [], rest)
    | .openObject :: rest => do
      let (members, rest) ← readMembers fuel rest
      return (.object members, rest)
    | _ => none

/-- The items of an array that is not empty, up to its closing bracket. -/
def readItems : Nat → List Token → Option (List Value × List Token)
  | 0, _ => none
  | fuel + 1, tokens => do
    let (item, rest) ← read fuel tokens
    match rest with
    | .closeArray :: rest => return ([item], rest)
    | .comma :: rest => do
      let (items, rest) ← readItems fuel rest
      return (item :: items, rest)
    | _ => none

/-- The members of an object that is not empty, up to its closing brace. -/
def readMembers : Nat → List Token → Option (List (Option String × Value) × List Token)
  | 0, _ => none
  | fuel + 1, tokens =>
    match tokens with
    | .text key :: .colon :: rest => do
      let (value, rest) ← read fuel rest
      match rest with
      | .closeObject :: rest => return ([(key, value)], rest)
      | .comma :: rest => do
        let (members, rest) ← readMembers fuel rest
        return ((key, value) :: members, rest)
      | _ => none
    | _ => none

end

/-- The value that a list of tokens writes, if nothing is left over. -/
def ofTokens? (tokens : List Token) : Option Value :=
  match read (2 * tokens.length + 2) tokens with
  | some (value, []) => some value
  | _ => none

/-- The value that a text writes. -/
def ofText? (s : String) : Option Value :=
  (tokens? s.toList).bind ofTokens?

/-- The string value of a text. -/
def ofString (s : String) : Value := .text (some s)

/-- The number value of an integer. -/
def ofInt (n : Int) : Value := .number (.ofInt n)

/-- The object with the given members. -/
def ofMembers (members : List (String × Value)) : Value :=
  .object (members.map fun m => (some m.1, m.2))

end Value

end IdlScope.Json

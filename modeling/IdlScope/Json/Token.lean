import IdlScope.Json.Numeral

/-!
# Tokens — the words of a JSON text

A text is first cut into tokens; blanks between tokens are dropped. A string token carries
its text, or nothing if its escapes name half of a surrogate pair: such a literal is well
formed but writes no text, and only who asks for the text needs to refuse it.

`Token.chars` writes a token and `tokens?` reads them, so the two can be held against each
other.
-/

namespace IdlScope.Json

/-- A word of a JSON text. -/
inductive Token where
  | openObject
  | closeObject
  | openArray
  | closeArray
  | colon
  | comma
  | null
  | bool (value : Bool)
  | number (value : Numeral)
  | text (value : Option String)

/-! ## Strings -/

/-- The value of a hexadecimal digit. -/
def hexDigit? (c : Char) : Option Nat :=
  if c.isDigit then some (c.toNat - 48)
  else if 'a' ≤ c && c ≤ 'f' then some (c.toNat - 87)
  else if 'A' ≤ c && c ≤ 'F' then some (c.toNat - 55)
  else none

/-- The value of four hexadecimal digits. -/
def hexQuad? (a b c d : Char) : Option Nat := do
  let a ← hexDigit? a
  let b ← hexDigit? b
  let c ← hexDigit? c
  let d ← hexDigit? d
  return ((a * 16 + b) * 16 + c) * 16 + d

/-- The character of a one-letter escape. -/
def escaped? : Char → Option Char
  | '"' => some '"'
  | '\\' => some '\\'
  | '/' => some '/'
  | 'b' => some '\x08'
  | 'f' => some '\x0c'
  | 'n' => some '\n'
  | 'r' => some '\r'
  | 't' => some '\t'
  | _ => none

/-- The code units of a string up to its closing quote, and the text after it. A character
that is not escaped counts as one unit, whatever its number. -/
def units? : List Char → Option (List Nat × List Char)
  | [] => none
  | '"' :: rest => some ([], rest)
  | '\\' :: 'u' :: a :: b :: c :: d :: rest => do
    let unit ← hexQuad? a b c d
    let (units, rest) ← units? rest
    return (unit :: units, rest)
  | '\\' :: e :: rest => do
    let c ← escaped? e
    let (units, rest) ← units? rest
    return (c.toNat :: units, rest)
  | c :: rest =>
    if c.toNat < 32 || c == '\\' then none
    else do
      let (units, rest) ← units? rest
      return (c.toNat :: units, rest)

/-- Is the unit the first half of a surrogate pair? -/
def isHighHalf (u : Nat) : Bool := 0xD800 ≤ u && u < 0xDC00

/-- Is the unit the second half of a surrogate pair? -/
def isLowHalf (u : Nat) : Bool := 0xDC00 ≤ u && u < 0xE000

/-- The characters of a list of units, if every half of a pair stands beside its other half. -/
def unitsText? : List Nat → Option (List Char)
  | [] => some []
  | [u] => if isHighHalf u || isLowHalf u then none else some [Char.ofNat u]
  | u :: v :: rest =>
    if isHighHalf u then
      if isLowHalf v then
        (unitsText? rest).map (Char.ofNat (0x10000 + (u - 0xD800) * 0x400 + (v - 0xDC00)) :: ·)
      else none
    else if isLowHalf u then none
    else (unitsText? (v :: rest)).map (Char.ofNat u :: ·)

/-! ## Numbers -/

/-- The whole part of a number: a zero, or digits that do not start with one. -/
def whole? (cs : List Char) : Option (List Char × List Char) :=
  let digits := cs.takeWhile Char.isDigit
  let rest := cs.drop digits.length
  match digits with
  | [] => none
  | ['0'] => some (digits, rest)
  | '0' :: _ => none
  | _ => some (digits, rest)

/-- The fraction of a number, empty if no point follows. -/
def fraction? : List Char → Option (List Char × List Char)
  | '.' :: rest =>
    let digits := rest.takeWhile Char.isDigit
    if digits.isEmpty then none else some (digits, rest.drop digits.length)
  | cs => some ([], cs)

/-- The exponent of a number, if one follows. -/
def exponent? : List Char → Option (Option Exponent × List Char)
  | c :: rest =>
    if c == 'e' || c == 'E' then
      let (negative, rest) := splitSign rest
      let digits := rest.takeWhile Char.isDigit
      if digits.isEmpty then none else some (some ⟨negative, digits⟩, rest.drop digits.length)
    else some (none, c :: rest)
  | [] => some (none, [])

/-- A number after its sign. -/
def numeral? (negative : Bool) (cs : List Char) : Option (Numeral × List Char) := do
  let (whole, rest) ← whole? cs
  let (fraction, rest) ← fraction? rest
  let (exponent, rest) ← exponent? rest
  return (⟨negative, whole, fraction, exponent⟩, rest)

/-! ## Cutting a text into tokens -/

/-- The blanks that may stand between tokens. -/
def isBlank (c : Char) : Bool :=
  c == ' ' || c == '\n' || c == '\t' || c == '\r'

/-- The first token of a text that does not start with a blank, and the text after it. -/
def token? : List Char → Option (Token × List Char)
  | '\x7b' :: rest => some (.openObject, rest)
  | '\x7d' :: rest => some (.closeObject, rest)
  | '[' :: rest => some (.openArray, rest)
  | ']' :: rest => some (.closeArray, rest)
  | ':' :: rest => some (.colon, rest)
  | ',' :: rest => some (.comma, rest)
  | 'n' :: 'u' :: 'l' :: 'l' :: rest => some (.null, rest)
  | 't' :: 'r' :: 'u' :: 'e' :: rest => some (.bool true, rest)
  | 'f' :: 'a' :: 'l' :: 's' :: 'e' :: rest => some (.bool false, rest)
  | '"' :: rest => do
    let (units, rest) ← units? rest
    return (.text ((unitsText? units).map String.ofList), rest)
  | '-' :: rest => do
    let (n, rest) ← numeral? true rest
    return (.number n, rest)
  | cs => do
    let (n, rest) ← numeral? false cs
    return (.number n, rest)

/-- Cuts a text into tokens in at most `fuel` steps. -/
def cut : Nat → List Char → Option (List Token)
  | 0, _ => none
  | _ + 1, [] => some []
  | fuel + 1, c :: rest =>
    if isBlank c then cut fuel rest
    else do
      let (t, rest) ← token? (c :: rest)
      let ts ← cut fuel rest
      return t :: ts

/-- The tokens of a text; every step takes a character, so its length is fuel enough. -/
def tokens? (cs : List Char) : Option (List Token) :=
  cut (cs.length + 1) cs

/-! ## Writing tokens -/

/-- A lower-case hexadecimal digit. -/
def hexChar (n : Nat) : Char :=
  if n < 10 then Char.ofNat (48 + n) else Char.ofNat (87 + n)

/-- One character inside a string: control characters, the quote and the backslash are
escaped, all else stands for itself. -/
def escapeChar (c : Char) : List Char :=
  if c == '"' then ['\\', '"']
  else if c == '\\' then ['\\', '\\']
  else if c == '\x08' then ['\\', 'b']
  else if c == '\x0c' then ['\\', 'f']
  else if c == '\n' then ['\\', 'n']
  else if c == '\r' then ['\\', 'r']
  else if c == '\t' then ['\\', 't']
  else if c.toNat < 32 then ['\\', 'u', '0', '0', hexChar (c.toNat / 16), hexChar (c.toNat % 16)]
  else [c]

/-- A text as a string literal. -/
def literal (s : String) : List Char :=
  '"' :: (s.toList.flatMap escapeChar ++ ['"'])

end IdlScope.Json

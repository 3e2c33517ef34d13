import IdlScope.Unicode.Visible

/-!
# Quoted texts — string literals and texts as a summary shows them

`quote` writes a string literal in double quotes: a quote, a backslash, a line feed, a
carriage return and a tab become a backslash and one character, and nothing else changes.
`unquote` reads such a literal back; it refuses every text that `quote` does not write.

`shown` is the wider quoting of one-line summaries, in which every character that cannot be
seen on its own is written by its number.
-/

namespace IdlScope.Text

/-- The character written after the backslash, for the five characters that need one. -/
def escapeOf? : Char → Option Char
  | '"' => some '"'
  | '\\' => some '\\'
  | '\n' => some 'n'
  | '\r' => some 'r'
  | '\t' => some 't'
  | _ => none

/-- The character that an escape stands for. -/
def escapedBy? : Char → Option Char
  | '"' => some '"'
  | '\\' => some '\\'
  | 'n' => some '\n'
  | 'r' => some '\r'
  | 't' => some '\t'
  | _ => none

/-- One character inside a literal. -/
def escape (c : Char) : List Char :=
  match escapeOf? c with
  | some e => ['\\', e]
  | none => [c]

/-- The text as a double-quoted literal. -/
def quote (s : String) : String :=
  String.ofList ('"' :: (s.toList.flatMap escape ++ ['"']))

/-- The characters up to the closing quote, which has to be the last character. -/
def unescape : List Char → Option (List Char)
  | [] => none
  | '"' :: rest => if rest.isEmpty then some [] else none
  | '\\' :: e :: rest =>
    match escapedBy? e with
    | some c => (unescape rest).map (c :: ·)
    | none => none
  | c :: rest => if (escapeOf? c).isSome then none else (unescape rest).map (c :: ·)

/-- The text that a double-quoted literal stands for. -/
def unquote (s : String) : Option String :=
  match s.toList with
  | '"' :: rest => (unescape rest).map String.ofList
  | _ => none

/-! ## Texts in summaries -/

/-- A character by its number, in lower-case hexadecimal. -/
def byNumber (c : Char) : List Char :=
  ['\\', 'u', '\x7b'] ++ Nat.toDigits 16 c.toNat ++ ['\x7d']

/-- One character of a shown text. -/
def reveal (c : Char) : List Char :=
  if c.toNat = 0 then ['\\', '0']
  else
    match escapeOf? c with
    | some e => ['\\', e]
    | none =>
      if Unicode.isExtendingMark c || !Unicode.isPrintable c then byNumber c else [c]

/-- The text in double quotes with every invisible character written out. -/
def shown (s : String) : String :=
  String.ofList ('"' :: (s.toList.flatMap reveal ++ ['"']))

end IdlScope.Text

/-!
# Reading doubles — the decimal and named forms of a double

A double is written as digits with an optional point and an optional power of ten, or by one
of the names `inf`, `infinity` and `nan` in any case, with an optional sign. The result is
the double nearest to the number. Powers far beyond the range are cut off first, so no huge
power of ten is ever computed.
-/

namespace IdlScope

/-- The value of a list of decimal digits. -/
def digitsValue (ds : List Char) : Nat :=
  ds.foldl (fun n d => 10 * n + (d.toNat - '0'.toNat)) 0

/-- A sign and the rest. -/
def splitSign : List Char → Bool × List Char
  | '-' :: rest => (true, rest)
  | '+' :: rest => (false, rest)
  | cs => (false, cs)

/-- The power of ten written at the end of a number: nothing, or `e` and an integer. -/
def readPower : List Char → Option Int
  | [] => some 0
  | c :: rest =>
    if c == 'e' || c == 'E' then
      let (negative, digits) := splitSign rest
      if digits.isEmpty || !digits.all Char.isDigit then none
      else some (if negative then -(digitsValue digits : Int) else digitsValue digits)
    else none

/-- The double nearest to `digits · 10^power`. -/
def nearestDouble (digits : Nat) (power : Int) : Float :=
  let order := power + (Nat.toDigits 10 digits).length
  if digits = 0 || order < -400 then 0
  else if 400 < order then 1 / 0
  else Float.ofScientific digits (power < 0) power.natAbs

/-- Reads an unsigned decimal number. -/
def readDecimal (cs : List Char) : Option Float :=
  let whole := cs.takeWhile Char.isDigit
  let rest := cs.drop whole.length
  let (fraction, rest) :=
    match rest with
    | '.' :: rest => (rest.takeWhile Char.isDigit, rest.dropWhile Char.isDigit)
    | _ => ([], rest)
  if whole.isEmpty && fraction.isEmpty then none
  else
    (readPower rest).map fun power =>
      nearestDouble (digitsValue (whole ++ fraction)) (power - fraction.length)

/-- Reads a double. -/
def readDouble (s : String) : Option Float :=
  let (negative, cs) := splitSign s.toList
  let magnitude :=
    match String.ofList (cs.map Char.toLower) with
    | "inf" | "infinity" => some (1 / 0)
    | "nan" => some (0 / 0)
    | _ => readDecimal cs
  magnitude.map fun x => if negative then -x else x

end IdlScope

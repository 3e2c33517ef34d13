import IdlScope.Decimal.Reading

/-!
# Numerals — JSON numbers as they are written

A numeral keeps its digits, so that the reader of a field decides what it means: an integer
field takes a numeral without fraction and exponent, a double field takes any.

The double of a numeral is computed in one pass. The digits are gathered into a significand
below `2^64`; the digits that no longer fit only count towards the power of ten. The
significand is then scaled by one power of ten, so the result may be off by a unit in the
last place. A numeral whose double would be infinite has none.
-/

namespace IdlScope.Json

/-- The exponent of a numeral: its sign and digits. -/
structure Exponent where
  negative : Bool
  digits : List Char
  deriving DecidableEq

/-- A JSON number as it is written. -/
structure Numeral where
  negative : Bool
  whole : List Char
  fraction : List Char
  exponent : Option Exponent
  deriving DecidableEq

namespace Numeral

/-- The numeral of an integer. -/
def ofInt (n : Int) : Numeral :=
  ⟨n < 0, Nat.toDigits 10 n.natAbs, [], none⟩

/-- The characters of a numeral; an exponent is written with its sign. -/
def chars (n : Numeral) : List Char :=
  (if n.negative then ['-'] else []) ++ n.whole ++
    (if n.fraction.isEmpty then [] else '.' :: n.fraction) ++
    (match n.exponent with
      | none => []
      | some e => 'e' :: (if e.negative then '-' else '+') :: e.digits)

/-- The integer that the numeral writes. A numeral with a fraction or an exponent writes
none, and neither does `-0`, which is the double. -/
def int? (n : Numeral) : Option Int :=
  if n.fraction.isEmpty && n.exponent.isNone then
    let magnitude := digitsValue n.whole
    if n.negative then (if magnitude = 0 then none else some (-(magnitude : Int)))
    else some magnitude
  else none

/-! ## The double of a numeral -/

/-- The largest significand. -/
def maxSignificand : Nat := Nat.pow 2 64 - 1

/-- The largest power of ten that is read before it counts as out of all range. -/
def maxPower : Nat := Nat.pow 2 31 - 1

/-- Gathers digits as long as the value stays within `limit`: the value and the digits left. -/
def gather (limit : Nat) : Nat → List Char → Nat × List Char
  | value, [] => (value, [])
  | value, d :: ds =>
    let next := 10 * value + (d.toNat - '0'.toNat)
    if limit < next then (value, d :: ds) else gather limit next ds

/-- The power of ten `10^n` as a double, for `n ≤ 308`. -/
def tenTo (n : Nat) : Float := Float.ofScientific 1 false n

/-- Scales a significand by a power of ten; powers below `-308` take several rounds. -/
def scale : Nat → Float → Int → Option Float
  | 0, x, _ => some x
  | rounds + 1, x, power =>
    if power.natAbs ≤ 308 then
      if 0 ≤ power then
        let y := x * tenTo power.natAbs
        if y.isInf then none else some y
      else some (x / tenTo power.natAbs)
    else if x == 0 then some x
    else if 0 ≤ power then none
    else scale rounds (x / tenTo 308) (power + 308)

/-- The magnitude of a numeral as a double. -/
def magnitude? (n : Numeral) : Option Float :=
  let (start, tooMany) := gather maxSignificand 0 n.whole
  let (significand, left) := gather maxSignificand start n.fraction
  let point : Int := (tooMany.length : Int) - (n.fraction.length - left.length : Nat)
  let x := significand.toUInt64.toFloat
  match n.exponent with
  | none => scale 4 x point
  | some e =>
    match gather maxPower 0 e.digits with
    | (power, []) => scale 4 x (if e.negative then point - power else point + power)
    | (_, _ :: _) => if significand ≠ 0 && !e.negative then none else some 0

/-- The double that the numeral writes, unless it is too large. -/
def double? (n : Numeral) : Option Float :=
  n.magnitude?.map fun x => if n.negative then -x else x

end Numeral

end IdlScope.Json

/-!
# Shortest decimals — the fewest digits that read back

A finite double that is not zero is a number `m · 2^q`. Every real number in the interval
around it, half way to its neighbours, rounds to it; the ends belong to the interval when
`m` is even. The shortest decimal of the double is the one with the fewest digits in that
interval, and of those the nearest.

The search is exact. For each number of digits there is a grid of decimals, and if any point
of the grid lies in the interval, one of the two points next to the double does. So only
those two are tried, for one digit, two digits, and so on; seventeen always suffice.
-/

namespace IdlScope

/-- The decimal number `digits · 10^exponent`. -/
structure Decimal where
  digits : Nat
  exponent : Int
  deriving DecidableEq

namespace Decimal

/-- Which of two equally near decimals is taken. -/
inductive Tie where
  | up
  | even

/-- The decimal without trailing zeros among its digits; `n` bounds how many there are. -/
def trim : Nat → Decimal → Decimal
  | 0, d => d
  | n + 1, d =>
    if d.digits ≠ 0 ∧ d.digits % 10 = 0 then trim n ⟨d.digits / 10, d.exponent + 1⟩ else d

end Decimal

/-- The magnitude `mantissa · 2^exponent` of a double, and whether it starts a binade, where
the gap below is half the gap above. -/
structure Magnitude where
  mantissa : Nat
  exponent : Int
  startsBinade : Bool

namespace Magnitude

/-- The magnitude in the bits of a finite double. -/
def ofBits (bits : UInt64) : Magnitude :=
  let fraction := bits.toNat % Nat.pow 2 52
  let biased : Nat := bits.toNat / Nat.pow 2 52 % Nat.pow 2 11
  if biased = 0 then ⟨fraction, -1074, false⟩
  else ⟨fraction + Nat.pow 2 52, Int.ofNat biased - 1075, fraction == 0 && biased > 1⟩

/-- The power of a base with an exponent cut off at zero. -/
def power (base : Nat) (exponent : Int) : Nat := Nat.pow base exponent.toNat

/-- The quotient of `a` quarter units of the magnitude by `10^step`, as a numerator over
`gridDenominator`. -/
def gridNumerator (g : Magnitude) (step : Int) (a : Nat) : Nat :=
  a * power 2 (g.exponent - 2) * power 10 (-step)

/-- The denominator shared by all quotients on the grid of `10^step`. -/
def gridDenominator (g : Magnitude) (step : Int) : Nat :=
  power 2 (2 - g.exponent) * power 10 step

/-- Is `d · 10^step` in the interval of reals that round to the magnitude? -/
def rounds (g : Magnitude) (step : Int) (d : Nat) : Bool :=
  let point := d * g.gridDenominator step
  let low := g.gridNumerator step (4 * g.mantissa - if g.startsBinade then 1 else 2)
  let high := g.gridNumerator step (4 * g.mantissa + 2)
  if g.mantissa % 2 = 0 then low ≤ point && point ≤ high else low < point && point < high

/-- The point of the grid of `10^step` that is taken for the magnitude, if the grid has one. -/
def onGrid (g : Magnitude) (tie : Decimal.Tie) (step : Int) : Option Nat :=
  let value := g.gridNumerator step (4 * g.mantissa)
  let below := value / g.gridDenominator step
  match g.rounds step below, g.rounds step (below + 1) with
  | false, false => none
  | true, false => some below
  | false, true => some (below + 1)
  | true, true =>
    let gapBelow := value - below * g.gridDenominator step
    let gapAbove := (below + 1) * g.gridDenominator step - value
    if gapBelow < gapAbove then some below
    else if gapAbove < gapBelow then some (below + 1)
    else
      match tie with
      | .up => some (below + 1)
      | .even => some (if below % 2 = 0 then below else below + 1)

/-- The `k` with `10^(k-1) ≤ value < 10^k`, read off four hundred decimal places. -/
def decimalOrder (g : Magnitude) : Int :=
  let places := g.mantissa * power 2 g.exponent * Nat.pow 10 400 / power 2 (-g.exponent)
  ((Nat.toDigits 10 places).length : Int) - 400

/-- Tries `count` digits, then one more, as long as `fuel` lasts. -/
def search (g : Magnitude) (tie : Decimal.Tie) (order : Int) : Nat → Nat → Decimal
  | 0, _ => ⟨g.mantissa, g.exponent⟩
  | fuel + 1, count =>
    match g.onGrid tie (order - count) with
    | some d => ⟨d, order - count⟩
    | none => search g tie order fuel (count + 1)

/-- The shortest decimal that rounds to the magnitude. -/
def shortest (g : Magnitude) (tie : Decimal.Tie) : Decimal :=
  Decimal.trim 17 (g.search tie g.decimalOrder 17 1)

end Magnitude

end IdlScope

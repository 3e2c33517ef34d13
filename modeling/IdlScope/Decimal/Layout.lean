import IdlScope.Decimal.Shortest

/-!
# Layouts — how the text of a double places its digits

Two layouts share the shortest digits. `positional` never writes an exponent and leaves the
fraction out when it is zero. `compact` always has a fraction or an exponent: it is
positional from `10^-5` up to `10^16` and scientific outside, where the exponent has a sign.
-/

namespace IdlScope

namespace Decimal

/-- `n` zeros. -/
def zeros (n : Nat) : String :=
  String.ofList (List.replicate n '0')

/-- The digits with a point `before` digits from the left, where it falls inside them. -/
def withPoint (digits : List Char) (before : Nat) : String :=
  String.ofList (digits.take before) ++ "." ++ String.ofList (digits.drop before)

/-- A decimal written without an exponent and without an empty fraction. -/
def positional (d : Decimal) : String :=
  let digits := Nat.toDigits 10 d.digits
  let before : Int := digits.length + d.exponent
  if 0 ≤ d.exponent then String.ofList digits ++ zeros d.exponent.toNat
  else if 0 < before then withPoint digits before.toNat
  else "0." ++ zeros (-before).toNat ++ String.ofList digits

/-- A decimal that always shows that it is one. -/
def compact (d : Decimal) : String :=
  let digits := Nat.toDigits 10 d.digits
  let before : Int := digits.length + d.exponent
  if 0 ≤ d.exponent ∧ before ≤ 16 then
    String.ofList digits ++ zeros d.exponent.toNat ++ ".0"
  else if 0 < before ∧ before ≤ 16 then withPoint digits before.toNat
  else if -5 < before ∧ before ≤ 0 then "0." ++ zeros (-before).toNat ++ String.ofList digits
  else
    let exponent := (if 0 < before then "e+" else "e") ++ toString (before - 1)
    match digits with
    | [_] => String.ofList digits ++ exponent
    | _ => withPoint digits 1 ++ exponent

end Decimal

/-- Is the sign bit of the double set? -/
def signBit (x : Float) : Bool :=
  x.toBits.toNat / Nat.pow 2 63 == 1

/-- The text of a double by a layout of its magnitude; zero is the decimal `0`. -/
def layoutDouble (tie : Decimal.Tie) (layout : Decimal → String) (x : Float) : String :=
  let g := Magnitude.ofBits x.toBits
  let magnitude := if g.mantissa = 0 then ⟨0, 0⟩ else g.shortest tie
  (if signBit x then "-" else "") ++ layout magnitude

/-- The double without an exponent: `2.5`, `100`, `-0`, `inf`, `NaN`. -/
def positionalDouble (x : Float) : String :=
  if x.isNaN then "NaN"
  else if x.isInf then (if signBit x then "-inf" else "inf")
  else layoutDouble .up Decimal.positional x

/-- The finite double with a fraction or an exponent: `2.5`, `100.0`, `1e+16`. -/
def compactDouble (x : Float) : String :=
  layoutDouble .even Decimal.compact x

end IdlScope

import Ventilation.Number.Binary64

namespace Ventilation
namespace Binary64

/-!
# The shortest decimal of a double

Of all decimals that round to a double, the text has the fewest digits, and of
those the nearest one.  It is positional from `0.00001` up to sixteen digits
before the point, and always has a point or an exponent.
-/

/-- Whole decimal digits and the power of ten that they are multiplied with. -/
structure Decimal where
  digits : Nat
  exponent : Int
  deriving DecidableEq, Repr

/-- The ends of the interval of numbers that round to a positive double, as
multiples of a quarter of its unit. -/
def bounds (value : Binary64) : Nat × Nat :=
  let low := if value.mantissa = Nat.pow 2 52 ∧ -1074 < value.exponent then
      4 * value.mantissa - 1 else 4 * value.mantissa - 2
  (low, 4 * value.mantissa + 2)

/-- The three numbers, as naturals over a common denominator: low end, value
and high end, then the denominator. -/
def scaled (value : Binary64) : Nat × Nat × Nat × Nat :=
  let (low, high) := value.bounds
  let exponent := value.exponent - 2
  if 0 ≤ exponent then
    let unit := Nat.pow 2 exponent.toNat
    (low * unit, 4 * value.mantissa * unit, high * unit, 1)
  else (low, 4 * value.mantissa, high, Nat.pow 2 (-exponent).toNat)

/-- The power of ten of the first digit of a positive quotient. -/
def magnitude (numerator denominator : Nat) : Int :=
  if denominator ≤ numerator then (Nat.toDigits 10 (numerator / denominator)).length - 1
  else
    let places :=
      (List.range 400).find? fun count => denominator ≤ numerator * Nat.pow 10 (count + 1)
    Int.negSucc (places.getD 0)

/-- The decimal on one grid that lies inside the interval, the nearest if there are two. -/
def onGrid? (value : Binary64) (exponent : Int) : Option Decimal :=
  let (low, middle, high, unit) := value.scaled
  let (up, down) :=
    if 0 ≤ exponent then (1, Nat.pow 10 exponent.toNat) else (Nat.pow 10 (-exponent).toNat, 1)
  let below := middle * up / (unit * down)
  let even := value.mantissa % 2 = 0
  let inside (digits : Nat) : Bool :=
    let point := digits * down * unit
    (low * up < point && point < high * up) ||
      (even && (point = low * up || point = high * up))
  let gapBelow := middle * up - below * down * unit
  let gapAbove := (below + 1) * down * unit - middle * up
  match inside below, inside (below + 1) with
  | true, true =>
    if gapBelow < gapAbove || (gapBelow = gapAbove && below % 2 = 0) then
      some ⟨below, exponent⟩ else some ⟨below + 1, exponent⟩
  | true, false => some ⟨below, exponent⟩
  | false, true => some ⟨below + 1, exponent⟩
  | false, false => none

/-- Digits without the zeros at their end. -/
def Decimal.strip (decimal : Decimal) : Nat → Decimal
  | 0 => decimal
  | fuel + 1 =>
    if decimal.digits ≠ 0 ∧ decimal.digits % 10 = 0 then
      strip ⟨decimal.digits / 10, decimal.exponent + 1⟩ fuel
    else decimal

/-- The shortest decimal that rounds to a positive double. -/
def shortest (value : Binary64) : Decimal :=
  let (numerator, denominator) := value.quotient
  let top := magnitude numerator denominator
  let found := (List.range 17).findSome? fun (extra : Nat) => value.onGrid? (top - extra)
  (found.getD ⟨value.mantissa, 0⟩).strip 20

def Decimal.text (decimal : Decimal) : String :=
  let digits := toString decimal.digits
  let length := (digits.length : Int)
  let point := length + decimal.exponent
  let zeros (count : Int) : String := String.ofList (List.replicate count.toNat '0')
  if 0 ≤ decimal.exponent ∧ point ≤ 16 then digits ++ zeros decimal.exponent ++ ".0"
  else if 0 < point ∧ point ≤ 16 then
    String.ofList (digits.toList.take point.toNat) ++ "."
      ++ String.ofList (digits.toList.drop point.toNat)
  else if -5 < point ∧ point ≤ 0 then "0." ++ zeros (-point) ++ digits
  else
    let fraction := digits.toList.drop 1
    String.ofList (digits.toList.take 1)
      ++ (if fraction.isEmpty then "" else "." ++ String.ofList fraction)
      ++ "e" ++ toString (point - 1)

def text (value : Binary64) : String :=
  if value.mantissa = 0 then "0.0" else value.shortest.text

end Binary64
end Ventilation

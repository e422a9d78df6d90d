namespace Ventilation

/-!
# Double precision numbers

A finite non-negative double is a mantissa of at most 53 bits times a power of
two, the exponent being at least -1074.  Every operation rounds its exact
result to the nearest double, a tie to the even mantissa, and has no result
when that would be infinite.
-/

/-- `mantissa * 2 ^ exponent`. -/
structure Binary64 where
  mantissa : Nat
  exponent : Int
  deriving DecidableEq, Repr

namespace Binary64

def zero : Binary64 := ⟨0, -1074⟩

/-- The quotient as a whole number: nearest, a tie to the even one. -/
def nearest (numerator denominator : Nat) : Nat :=
  let quotient := numerator / denominator
  let remainder := numerator % denominator
  if 2 * remainder > denominator || (2 * remainder = denominator && quotient % 2 = 1) then
    quotient + 1
  else quotient

/-- A quotient divided by a power of two, as a quotient of naturals. -/
def shift (numerator denominator : Nat) (exponent : Int) : Nat × Nat :=
  if 0 ≤ exponent then (numerator, denominator * Nat.pow 2 exponent.toNat)
  else (numerator * Nat.pow 2 (-exponent).toNat, denominator)

/-- The exponent at which a quotient has 53 bits before the binary point, or
the least exponent that there is. -/
def exponentFor (numerator denominator : Nat) : Int :=
  let guess := max ((numerator.log2 : Int) - denominator.log2 - 53) (-1074)
  let (scaled, unit) := shift numerator denominator guess
  if scaled < Nat.pow 2 53 * unit then guess else guess + 1

def ofQuotient? (numerator denominator : Nat) : Option Binary64 :=
  if numerator = 0 then some zero
  else
    let exponent := exponentFor numerator denominator
    let (scaled, unit) := shift numerator denominator exponent
    let mantissa := nearest scaled unit
    let rounded : Binary64 :=
      if mantissa = Nat.pow 2 53 then ⟨Nat.pow 2 52, exponent + 1⟩ else ⟨mantissa, exponent⟩
    if rounded.exponent ≤ 971 then some rounded else none

def quotient (value : Binary64) : Nat × Nat :=
  if 0 ≤ value.exponent then (value.mantissa * Nat.pow 2 value.exponent.toNat, 1)
  else (value.mantissa, Nat.pow 2 (-value.exponent).toNat)

def mul? (first second : Binary64) : Option Binary64 :=
  let (a, b) := first.quotient
  let (c, d) := second.quotient
  ofQuotient? (a * c) (b * d)

/-- The rounded quotient; `second` is not zero. -/
def div? (first second : Binary64) : Option Binary64 :=
  let (a, b) := first.quotient
  let (c, d) := second.quotient
  ofQuotient? (a * d) (b * c)

/-- The double nearest to a power of ten up to 308. -/
def powerOfTen (exponent : Nat) : Binary64 := (ofQuotient? (Nat.pow 10 exponent) 1).getD zero

/-- A rounded value divided by a power of ten, at most 308 decimal places at a
time, each step being rounded. -/
def dividePowerOfTen (value : Binary64) (places : Nat) : Binary64 :=
  if value.mantissa = 0 then value
  else if places ≤ 308 then (value.div? (powerOfTen places)).getD zero
  else dividePowerOfTen ((value.div? (powerOfTen 308)).getD zero) (places - 308)
termination_by places

/-- A whole number times a power of ten.  The number is rounded first and the
product once more, so the result can differ from the nearest double in its last
bit; it is missing if the product is too large. -/
def ofDecimal? (significand : Nat) (exponent : Int) : Option Binary64 := do
  let value ← ofQuotient? significand 1
  if value.mantissa = 0 then return value
  if exponent < 0 then return dividePowerOfTen value (-exponent).toNat
  if exponent ≤ 308 then value.mul? (powerOfTen exponent.toNat) else none

end Binary64

end Ventilation

namespace Ventilation
namespace Text
namespace Natural

/-!
# Natural numbers in text

A number is one or more decimal digits, with at most one plus sign in front.
Leading zeros do no harm.
-/

def digitValue (c : Char) : Nat := c.toNat - '0'.toNat

def value (digits : List Char) : Nat := digits.foldl (fun sum c => sum * 10 + digitValue c) 0

/-- The number of some digits, if there are any and nothing else. -/
def digits? (text : List Char) : Option Nat :=
  if text ≠ [] ∧ text.all Char.isDigit then some (value text) else none

/-- The number that some text names, if it is below a bound. -/
def read? (bound : Nat) (text : List Char) : Option Nat := do
  let number ← match text with
    | '+' :: digits => digits? digits
    | digits => digits? digits
  if number < bound then some number else none

end Natural
end Text
end Ventilation

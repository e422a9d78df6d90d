import Ventilation.Clock

namespace Ventilation
namespace Span

/-!
# Spans in text

A span is written in the largest unit of which it has at least one, with as
many decimal places as it needs.
-/

/-- The decimal places of a fraction, without zeros at the end. -/
def places (fraction width : Nat) : String :=
  let digits := Nat.toDigits 10 fraction
  let padded := List.replicate (width - digits.length) '0' ++ digits
  let kept := (padded.reverse.dropWhile (· = '0')).reverse
  if kept.isEmpty then "" else "." ++ String.ofList kept

/-- A span in a unit of `10 ^ width` nanoseconds. -/
def inUnit (span width : Nat) (unit : String) : String :=
  toString (span / Nat.pow 10 width) ++ places (span % Nat.pow 10 width) width ++ unit

def text (span : Span) : String :=
  if second ≤ span then inUnit span 9 "s"
  else if millisecond ≤ span then inUnit span 6 "ms"
  else if 1000 ≤ span then inUnit span 3 "µs"
  else toString span ++ "ns"

end Span
end Ventilation

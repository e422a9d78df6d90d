import Ventilation.Text.Hex
import Ventilation.Text.Utf8

namespace Ventilation
namespace Text
namespace Percent

/-!
# Percent escapes

A percent sign and two hexadecimal digits stand for a byte.  A percent sign
without them stands for itself.  In a form a plus sign stands for a space.
-/

def sign : Char := '%'

/-- The byte that two hexadecimal digits spell. -/
def byte? (high low : Char) : Option UInt8 := do
  let upper ← Hex.value? high
  let lower ← Hex.value? low
  return UInt8.ofNat (upper * 16 + lower)

/-- The byte that three characters spell as an escape. -/
def escape? (c high low : Char) : Option UInt8 := if c = sign then byte? high low else none

/-- The bytes that some text stands for. -/
def decode : List Char → List UInt8
  | [] => []
  | [c] => String.utf8EncodeChar c
  | [c, d] => String.utf8EncodeChar c ++ String.utf8EncodeChar d
  | c :: high :: low :: rest =>
    match escape? c high low with
    | some byte => byte :: decode rest
    | none => String.utf8EncodeChar c ++ decode (high :: low :: rest)

/-- The text that a field of a form stands for. -/
def ofForm (field : List Char) : List Char :=
  Utf8.lossy (decode (field.map fun c => if c = '+' then ' ' else c))

end Percent
end Text
end Ventilation

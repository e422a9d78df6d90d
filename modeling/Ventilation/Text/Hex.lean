namespace Ventilation
namespace Text
namespace Hex

/-!
# Hexadecimal dumps

A byte is written as two digits.  Reading takes digits of either case and
nothing else; writing uses lower case.
-/

/-- The value of a digit of either case. -/
def value? (c : Char) : Option Nat :=
  if '0' ≤ c ∧ c ≤ '9' then some (c.toNat - '0'.toNat)
  else if 'a' ≤ c ∧ c ≤ 'f' then some (c.toNat - 'a'.toNat + 10)
  else if 'A' ≤ c ∧ c ≤ 'F' then some (c.toNat - 'A'.toNat + 10)
  else none

def digit (value : Nat) : Char :=
  if value < 10 then Char.ofNat ('0'.toNat + value) else Char.ofNat ('a'.toNat + (value - 10))

/-- Read a dump; there is none in text of odd length or with another character. -/
def decode? : List Char → Option (List UInt8)
  | [] => some []
  | [_] => none
  | high :: low :: rest => do
    let upper ← value? high
    let lower ← value? low
    let bytes ← decode? rest
    return UInt8.ofNat (upper * 16 + lower) :: bytes

/-- The two digits of a byte. -/
def pair (byte : UInt8) : List Char := [digit (byte.toNat / 16), digit (byte.toNat % 16)]

def encode (bytes : List UInt8) : List Char := bytes.flatMap pair

/-- Bytes as people read them in logs: pairs of digits in brackets. -/
def list (bytes : List UInt8) : String :=
  "[" ++ String.intercalate ", " (bytes.map fun byte => String.ofList (pair byte)) ++ "]"

end Hex
end Text
end Ventilation

import Ventilation.Json.Token
import Ventilation.Number.Shortest

namespace Ventilation
namespace Json

/-!
# Numbers

A numeral without point and exponent is a whole number as long as it fits 64
bits.  Every other numeral is a double, made from as many leading digits as fit
64 bits; a numeral that is too large for a double is no number at all.  Minus
zero is a double.
-/

/-- What a numeral is worth. -/
inductive Number
  | natural (value : Nat)
  /-- The negative of a positive whole number. -/
  | negative (magnitude : Nat)
  | double (negative : Bool) (magnitude : Binary64)
  deriving DecidableEq, Repr

namespace Numeral

def digitValue (c : Char) : Nat := c.toNat - '0'.toNat

/-- A whole number extended by digits as long as it fits 64 bits, and the
digits that are left. -/
def extend (value : Nat) : List Char → Nat × List Char
  | [] => (value, [])
  | c :: rest =>
    let next := value * 10 + digitValue c
    if next < Nat.pow 2 64 then extend next rest else (value, c :: rest)

def natural (digits : List Char) : Nat := digits.foldl (fun value c => value * 10 + digitValue c) 0

def writtenExponent (numeral : Numeral) : Int :=
  match numeral.exponent with
  | none => 0
  | some (negative, digits) => if negative then -(natural digits : Int) else natural digits

/-- The double that a numeral is worth. -/
def double? (numeral : Numeral) : Option Binary64 :=
  let (value, dropped) := extend 0 numeral.whole
  let fraction := numeral.fraction.getD []
  let (significand, left) := extend value fraction
  let places := fraction.length - left.length
  Binary64.ofDecimal? significand (dropped.length - places + numeral.writtenExponent)

/-- What a numeral is worth. -/
def number? (numeral : Numeral) : Option Number :=
  let (value, dropped) := extend 0 numeral.whole
  if numeral.fraction.isNone ∧ numeral.exponent.isNone ∧ dropped.isEmpty then
    if ¬ numeral.negative then some (.natural value)
    else if 0 < value ∧ value ≤ Nat.pow 2 63 then some (.negative value)
    else numeral.double?.map (.double true)
  else numeral.double?.map (.double numeral.negative)

def ofNat (value : Nat) : Numeral := ⟨false, Nat.toDigits 10 value, none, none⟩

def ofInt (value : Int) : Numeral := ⟨value < 0, Nat.toDigits 10 value.natAbs, none, none⟩

def chars (numeral : Numeral) : List Char :=
  (if numeral.negative then ['-'] else []) ++ numeral.whole
    ++ (match numeral.fraction with
      | none => []
      | some digits => '.' :: digits)
    ++ (match numeral.exponent with
      | none => []
      | some (negative, digits) => 'e' :: ((if negative then ['-'] else []) ++ digits))

end Numeral

namespace Number

def text : Number → String
  | natural value => toString value
  | negative magnitude => "-" ++ toString magnitude
  | double minus magnitude => (if minus then "-" else "") ++ magnitude.text

/-- The number as a natural below a bound. -/
def below? (bound : Nat) : Number → Option Nat
  | natural value => if value < bound then some value else none
  | _ => none

end Number

end Json
end Ventilation

import Ventilation.Text.Hex
import Ventilation.Text.Utf8

namespace Ventilation
namespace Json

/-!
# Tokens of JSON text

Text is cut into brackets, separators, words, numerals and strings.  Blanks
between tokens disappear here, and so does the choice of escapes in a string:
a string is the glyphs that it stands for, with `junk` where it stands for no
character, be it bytes that are no text or half a surrogate pair.  Numerals
keep every digit, because what they are worth depends on who reads them.
-/

open Text (Glyph)

/-- The spelling of a number. -/
structure Numeral where
  negative : Bool
  whole : List Char
  fraction : Option (List Char)
  /-- Whether the exponent is negative, and its digits. -/
  exponent : Option (Bool × List Char)
  deriving DecidableEq, Repr

/-- A token of JSON text. -/
inductive Token
  | openArray
  | closeArray
  | openObject
  | closeObject
  | comma
  | colon
  | null
  | bool (value : Bool)
  | numeral (spelling : Numeral)
  | string (glyphs : List Glyph)
  deriving DecidableEq, Repr

/-- Space, tab, line feed and carriage return separate tokens. -/
def isBlank (glyph : Glyph) : Bool :=
  glyph = .char ' ' || glyph = .char '\t' || glyph = .char '\n' || glyph = .char '\r'

/-! ## Strings -/

/-- A piece of a string before surrogate pairs are joined. -/
inductive Piece
  | glyph (glyph : Glyph)
  | unit (code : Nat)
  deriving DecidableEq, Repr

/-- The characters that a backslash and one more character stand for. -/
def escape? (c : Char) : Option Char :=
  if c = '"' then some '"'
  else if c = '\\' then some '\\'
  else if c = '/' then some '/'
  else if c = 'b' then some '\x08'
  else if c = 'f' then some '\x0c'
  else if c = 'n' then some '\n'
  else if c = 'r' then some '\r'
  else if c = 't' then some '\t'
  else none

def hexValue? : Glyph → Option Nat
  | .char c => Text.Hex.value? c
  | .junk => none

/-- The code unit of four hexadecimal digits. -/
def unit? (a b c d : Glyph) : Option Nat := do
  let first ← hexValue? a
  let second ← hexValue? b
  let third ← hexValue? c
  let fourth ← hexValue? d
  return ((first * 16 + second) * 16 + third) * 16 + fourth

/-- The pieces of a string up to its closing quote, and what follows it. -/
def pieces? : List Glyph → Option (List Piece × List Glyph)
  | [] => none
  | .junk :: rest => (pieces? rest).map fun (body, after) => (.glyph .junk :: body, after)
  | .char c :: rest =>
    if c = '"' then some ([], rest)
    else if c = '\\' then
      match rest with
      | .char 'u' :: a :: b :: c :: d :: rest => do
        let code ← unit? a b c d
        let (body, after) ← pieces? rest
        return (.unit code :: body, after)
      | .char e :: rest => do
        let plain ← escape? e
        let (body, after) ← pieces? rest
        return (.glyph (.char plain) :: body, after)
      | _ => none
    else if c.toNat < 0x20 then none
    else (pieces? rest).map fun (body, after) => (.glyph (.char c) :: body, after)

/-- A first half of a surrogate pair. -/
def isLeading (code : Nat) : Bool := 0xD800 ≤ code && code < 0xDC00

/-- A second half of a surrogate pair. -/
def isTrailing (code : Nat) : Bool := 0xDC00 ≤ code && code < 0xE000

/-- The glyph of a code unit that is not joined with another. -/
def single (code : Nat) : Glyph :=
  if isLeading code || isTrailing code then .junk else .char (Char.ofNat code)

def paired (leading trailing : Nat) : Char :=
  Char.ofNat (0x10000 + (leading - 0xD800) * 0x400 + (trailing - 0xDC00))

/-- Join surrogate pairs; a half that stands alone is junk. -/
def join : List Piece → List Glyph
  | [] => []
  | .glyph glyph :: rest => glyph :: join rest
  | [.unit code] => [single code]
  | .unit code :: .glyph glyph :: rest => single code :: glyph :: join rest
  | .unit code :: .unit next :: rest =>
    if isLeading code && isTrailing next then .char (paired code next) :: join rest
    else single code :: join (.unit next :: rest)

/-! ## Numerals -/

/-- The digits at the beginning of some text, and what follows them. -/
def digits : List Glyph → List Char × List Glyph
  | .char c :: rest =>
    if c.isDigit then
      let (more, after) := digits rest
      (c :: more, after)
    else ([], .char c :: rest)
  | rest => ([], rest)

/-- At least one digit at the beginning of some text. -/
def someDigits? (text : List Glyph) : Option (List Char × List Glyph) :=
  let (found, after) := digits text
  if found.isEmpty then none else some (found, after)

/-- The part before the point: a zero alone, or digits that begin with another. -/
def whole? : List Glyph → Option (List Char × List Glyph)
  | .char c :: rest =>
    if c = '0' then some (['0'], rest)
    else someDigits? (.char c :: rest)
  | _ => none

/-- The part after the point, if there is one. -/
def fraction? : List Glyph → Option (Option (List Char) × List Glyph)
  | .char '.' :: rest => (someDigits? rest).map fun (found, after) => (some found, after)
  | rest => some (none, rest)

def exponent? : List Glyph → Option (Option (Bool × List Char) × List Glyph)
  | .char c :: rest =>
    if c = 'e' || c = 'E' then
      let (negative, digits) := match rest with
        | .char '-' :: rest => (true, rest)
        | .char '+' :: rest => (false, rest)
        | rest => (false, rest)
      (someDigits? digits).map fun (found, after) => (some (negative, found), after)
    else some (none, .char c :: rest)
  | rest => some (none, rest)

/-- A numeral after its sign. -/
def numeral? (negative : Bool) (text : List Glyph) : Option (Numeral × List Glyph) := do
  let (whole, text) ← whole? text
  let (fraction, text) ← fraction? text
  let (exponent, text) ← exponent? text
  return (⟨negative, whole, fraction, exponent⟩, text)

/-! ## Tokens -/

/-- The text after a word that it has to begin with. -/
def word? : List Char → List Glyph → Option (List Glyph)
  | [], rest => some rest
  | c :: word, .char d :: rest => if c = d then word? word rest else none
  | _ :: _, _ => none

/-- The token that begins with a character, and what follows it. -/
def token? (c : Char) (rest : List Glyph) : Option (Token × List Glyph) :=
  if c = '[' then some (.openArray, rest)
  else if c = ']' then some (.closeArray, rest)
  else if c = '\x7b' then some (.openObject, rest)
  else if c = '\x7d' then some (.closeObject, rest)
  else if c = ',' then some (.comma, rest)
  else if c = ':' then some (.colon, rest)
  else if c = '"' then (pieces? rest).map fun (body, after) => (.string (join body), after)
  else if c = 'n' then (word? "ull".toList rest).map (.null, ·)
  else if c = 't' then (word? "rue".toList rest).map (.bool true, ·)
  else if c = 'f' then (word? "alse".toList rest).map (.bool false, ·)
  else if c = '-' then (numeral? true rest).map fun (n, after) => (.numeral n, after)
  else (numeral? false (.char c :: rest)).map fun (n, after) => (.numeral n, after)

/-- The tokens of some text, reading at most so many of its glyphs one by one. -/
def tokensWithin? : Nat → List Glyph → Option (List Token)
  | _, [] => some []
  | 0, _ :: _ => none
  | fuel + 1, glyph :: rest =>
    if isBlank glyph then tokensWithin? fuel rest
    else match glyph with
      | .junk => none
      | .char c => do
        let (token, after) ← token? c rest
        let tokens ← tokensWithin? fuel after
        return token :: tokens

def tokens? (text : List Glyph) : Option (List Token) := tokensWithin? text.length text

end Json
end Ventilation

namespace Ventilation
namespace Text

/-!
# Reading bytes as text

Bytes read as characters wherever they are well-formed UTF-8.  What is not is
cut into the longest pieces that could still have begun a character, and each
such piece is one `junk` glyph.  A piece of junk never contains an ASCII byte,
so structure that is written in ASCII survives next to it.
-/

/-- One unit of what bytes read as. -/
inductive Glyph
  | char (c : Char)
  | junk
  deriving DecidableEq, Repr

namespace Glyph

/-- The glyph as a character, junk as U+FFFD. -/
def toChar : Glyph → Char
  | char c => c
  | junk => '\uFFFD'

/-- The glyph as a character, if it is one. -/
def char? : Glyph → Option Char
  | char c => some c
  | junk => none

end Glyph

namespace Utf8

/-- A character of which some bytes have been seen: the value so far, how many
bytes are owed after the next one, and the bounds for the next one. -/
structure Partial where
  value : Nat
  owed : Nat
  low : UInt8
  high : UInt8
  deriving DecidableEq, Repr

/-- A byte that may begin a character. -/
inductive Lead
  | ascii (c : Char)
  | opens (pending : Partial)
  | stray
  deriving DecidableEq, Repr

/-- What a byte means at the beginning of a character. -/
def lead (byte : UInt8) : Lead :=
  let value := byte.toNat
  if value < 0x80 then .ascii (Char.ofNat value)
  else if value < 0xC2 then .stray
  else if value < 0xE0 then .opens ⟨value - 0xC0, 0, 0x80, 0xBF⟩
  else if value = 0xE0 then .opens ⟨0, 1, 0xA0, 0xBF⟩
  else if value = 0xED then .opens ⟨0xD, 1, 0x80, 0x9F⟩
  else if value < 0xF0 then .opens ⟨value - 0xE0, 1, 0x80, 0xBF⟩
  else if value = 0xF0 then .opens ⟨0, 2, 0x90, 0xBF⟩
  else if value < 0xF4 then .opens ⟨value - 0xF0, 2, 0x80, 0xBF⟩
  else if value = 0xF4 then .opens ⟨4, 2, 0x80, 0x8F⟩
  else .stray

/-- The glyphs of some bytes, after the beginning of a character if one is pending. -/
def glyphsAfter : Option Partial → List UInt8 → List Glyph
  | none, [] => []
  | some _, [] => [.junk]
  | none, byte :: rest =>
    match lead byte with
    | .ascii c => .char c :: glyphsAfter none rest
    | .opens pending => glyphsAfter (some pending) rest
    | .stray => .junk :: glyphsAfter none rest
  | some pending, byte :: rest =>
    if pending.low ≤ byte ∧ byte ≤ pending.high then
      let value := pending.value * 64 + byte.toNat % 64
      match pending.owed with
      | 0 => .char (Char.ofNat value) :: glyphsAfter none rest
      | owed + 1 => glyphsAfter (some ⟨value, owed, 0x80, 0xBF⟩) rest
    else
      match lead byte with
      | .ascii c => .junk :: .char c :: glyphsAfter none rest
      | .opens next => .junk :: glyphsAfter (some next) rest
      | .stray => .junk :: .junk :: glyphsAfter none rest

def glyphs (bytes : List UInt8) : List Glyph := glyphsAfter none bytes

/-- The bytes as text, with U+FFFD for each piece of junk. -/
def lossy (bytes : List UInt8) : List Char := (glyphs bytes).map Glyph.toChar

/-- The bytes as text, if all of them are well-formed. -/
def decode? (bytes : List UInt8) : Option (List Char) := (glyphs bytes).mapM Glyph.char?

def encode (text : List Char) : List UInt8 := text.flatMap String.utf8EncodeChar

end Utf8
end Text
end Ventilation

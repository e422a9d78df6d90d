import Ventilation.Json.Document
import Ventilation.Json.Number

namespace Ventilation
namespace Json

/-!
# JSON values

A value is a document that has been understood: strings are text, numerals are
numbers, and an object is sorted by key, the last member with a key standing
for all of them.  A document that nests too deeply, holds a string that is no
text or a numeral that is no number is no value.
-/

open Text (Glyph)

/-- The text of some glyphs, if all of them are characters. -/
def text? (glyphs : List Glyph) : Option String := (glyphs.mapM Glyph.char?).map String.ofList

/-- What a document means. -/
inductive Value
  | null
  | bool (value : Bool)
  | number (value : Number)
  | string (text : String)
  | array (items : List Value)
  | object (members : List (String × Value))
  deriving Repr, Inhabited

namespace Value

/-- Put a member into sorted members, in place of an earlier one with its key. -/
def insert (key : String) (value : Value) : List (String × Value) → List (String × Value)
  | [] => [(key, value)]
  | (other, held) :: rest =>
    if key < other then (key, value) :: (other, held) :: rest
    else if key = other then (key, value) :: rest
    else (other, held) :: insert key value rest

/-- Members sorted by key, the last one of a key. -/
def sorted (members : List (String × Value)) : List (String × Value) :=
  members.foldl (fun done (key, value) => insert key value done) []

end Value

def maxDepth : Nat := 127

namespace Document

mutual

/-- What a document means, if it has at most so many nested brackets. -/
def value? (depth : Nat) : Document → Option Value
  | null => some .null
  | bool value => some (.bool value)
  | numeral spelling => spelling.number?.map .number
  | string glyphs => (text? glyphs).map .string
  | array items => if depth = 0 then none else (itemValues? (depth - 1) items).map .array
  | object members =>
    if depth = 0 then none
    else (memberValues? (depth - 1) members).map fun found => .object (Value.sorted found)

/-- What the items of an array mean. -/
def itemValues? (depth : Nat) : List Document → Option (List Value)
  | [] => some []
  | item :: rest => do
    let value ← value? depth item
    let values ← itemValues? depth rest
    return value :: values

/-- What the members of an object mean. -/
def memberValues? (depth : Nat) : List Member → Option (List (String × Value))
  | [] => some []
  | (key, document) :: rest => do
    let name ← text? key
    let value ← value? depth document
    let values ← memberValues? depth rest
    return (name, value) :: values

end

end Document
end Json
end Ventilation

import Ventilation.Json.Value

namespace Ventilation
namespace Json

/-!
# Writing JSON text

Documents are written without blanks.  A string escapes the quote, the
backslash and the control characters, with short escapes where there are any;
every other character is written as it is.
-/

open Text (Glyph)

def escaped (c : Char) : List Char :=
  if c = '"' then ['\\', '"']
  else if c = '\\' then ['\\', '\\']
  else if c = '\x08' then ['\\', 'b']
  else if c = '\x0c' then ['\\', 'f']
  else if c = '\n' then ['\\', 'n']
  else if c = '\r' then ['\\', 'r']
  else if c = '\t' then ['\\', 't']
  else if c.toNat < 0x20 then
    ['\\', 'u', '0', '0', Text.Hex.digit (c.toNat / 16), Text.Hex.digit (c.toNat % 16)]
  else [c]

/-- The characters of a string with its quotes. -/
def quoted (text : List Char) : List Char := '"' :: (text.flatMap escaped ++ ['"'])

namespace Document

def ofText (text : String) : Document := .string (text.toList.map .char)

/-- A member with a key of its own. -/
def field (key : String) (document : Document) : Member := (key.toList.map .char, document)

mutual

def chars : Document → List Char
  | null => "null".toList
  | bool true => "true".toList
  | bool false => "false".toList
  | numeral spelling => spelling.chars
  | string glyphs => quoted (glyphs.map Glyph.toChar)
  | array items => '[' :: itemChars items
  | object members => '\x7b' :: memberChars members

/-- The characters after the bracket that opens an array. -/
def itemChars : List Document → List Char
  | [] => [']']
  | item :: rest => chars item ++ laterItemChars rest

/-- The characters after an item of an array. -/
def laterItemChars : List Document → List Char
  | [] => [']']
  | item :: rest => ',' :: (chars item ++ laterItemChars rest)

/-- The characters after the bracket that opens an object. -/
def memberChars : List Member → List Char
  | [] => ['\x7d']
  | (key, document) :: rest =>
    quoted (key.map Glyph.toChar) ++ ':' :: (chars document ++ laterMemberChars rest)

/-- The characters after a member of an object. -/
def laterMemberChars : List Member → List Char
  | [] => ['\x7d']
  | (key, document) :: rest =>
    ',' :: (quoted (key.map Glyph.toChar) ++ ':' :: (chars document ++ laterMemberChars rest))

end

def write (document : Document) : String := String.ofList document.chars

end Document
end Json
end Ventilation

import Ventilation.Text.Unseen

namespace Ventilation
namespace Text
namespace Quoted

/-!
# Quoted text in messages

Text inside a message stands in double quotes.  Characters that would not show
are written as escapes: quote, backslash, tab, line feed, carriage return and
NUL by a letter, the others by their code point in hexadecimal.
-/

def codePoint (c : Char) : String :=
  "\\u\x7b" ++ String.ofList (Nat.toDigits 16 c.toNat) ++ "\x7d"

/-- A character as it stands in quotes. -/
def escaped (c : Char) : String :=
  if c = '"' then "\\\""
  else if c = '\\' then "\\\\"
  else if c = '\t' then "\\t"
  else if c = '\n' then "\\n"
  else if c = '\r' then "\\r"
  else if c = '\x00' then "\\0"
  else if isUnseen c then codePoint c
  else String.singleton c

def quote (text : String) : String :=
  "\"" ++ String.join (text.toList.map escaped) ++ "\""

end Quoted
end Text
end Ventilation

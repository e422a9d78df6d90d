import Ventilation.Json.Token

namespace Ventilation
namespace Json

/-!
# JSON documents

A document is what a JSON text says before anybody decides what it means:
members keep their order and may share a key, numerals keep their spelling and
strings may hold junk.  Reading takes one token at a time and remembers the
open brackets, so there is no limit on nesting here.  It is the exact inverse
of `Document.tokens`.
-/

open Text (Glyph)

/-- What a JSON text says. -/
inductive Document
  | null
  | bool (value : Bool)
  | numeral (spelling : Numeral)
  | string (glyphs : List Glyph)
  | array (items : List Document)
  | object (members : List (List Glyph × Document))
  deriving Repr, Inhabited

abbrev Member := List Glyph × Document

namespace Document

mutual

def tokens : Document → List Token
  | null => [.null]
  | bool value => [.bool value]
  | numeral spelling => [.numeral spelling]
  | string glyphs => [.string glyphs]
  | array items => .openArray :: itemTokens items
  | object members => .openObject :: memberTokens members

/-- The tokens after the bracket that opens an array. -/
def itemTokens : List Document → List Token
  | [] => [.closeArray]
  | item :: rest => tokens item ++ laterItemTokens rest

/-- The tokens after an item of an array. -/
def laterItemTokens : List Document → List Token
  | [] => [.closeArray]
  | item :: rest => .comma :: (tokens item ++ laterItemTokens rest)

/-- The tokens after the bracket that opens an object. -/
def memberTokens : List Member → List Token
  | [] => [.closeObject]
  | (key, document) :: rest => .string key :: .colon :: (tokens document ++ laterMemberTokens rest)

/-- The tokens after a member of an object. -/
def laterMemberTokens : List Member → List Token
  | [] => [.closeObject]
  | (key, document) :: rest =>
    .comma :: .string key :: .colon :: (tokens document ++ laterMemberTokens rest)

end

end Document

/-- An open bracket with what it holds so far, the newest first. -/
inductive Frame
  | array (items : List Document)
  | object (members : List Member) (key : List Glyph)

/-- What has been read, and what may come next. -/
inductive Reader
  /-- A document. -/
  | document (outer : List Frame)
  /-- The first item of an array, or its end. -/
  | firstItem (outer : List Frame)
  /-- A comma, or the end of the array. -/
  | afterItem (outer : List Frame) (items : List Document)
  /-- The first key of an object, or its end. -/
  | firstKey (outer : List Frame)
  /-- A key. -/
  | key (outer : List Frame) (members : List Member)
  /-- The colon after a key. -/
  | colon (outer : List Frame) (members : List Member) (key : List Glyph)
  /-- A comma, or the end of the object. -/
  | afterMember (outer : List Frame) (members : List Member)
  /-- Nothing. -/
  | finished (document : Document)

namespace Reader

/-- Put a complete document into the innermost open bracket. -/
def place (document : Document) : List Frame → Reader
  | [] => finished document
  | .array items :: outer => afterItem outer (document :: items)
  | .object members name :: outer => afterMember outer ((name, document) :: members)

/-- Take a token where a document has to begin. -/
def begin? (outer : List Frame) : Token → Option Reader
  | .null => some (place .null outer)
  | .bool value => some (place (.bool value) outer)
  | .numeral spelling => some (place (.numeral spelling) outer)
  | .string glyphs => some (place (.string glyphs) outer)
  | .openArray => some (firstItem outer)
  | .openObject => some (firstKey outer)
  | _ => none

def take? : Reader → Token → Option Reader
  | document outer, token => begin? outer token
  | firstItem outer, .closeArray => some (place (.array []) outer)
  | firstItem outer, token => begin? (.array [] :: outer) token
  | afterItem outer items, .comma => some (document (.array items :: outer))
  | afterItem outer items, .closeArray => some (place (.array items.reverse) outer)
  | firstKey outer, .closeObject => some (place (.object []) outer)
  | firstKey outer, .string name => some (colon outer [] name)
  | key outer members, .string name => some (colon outer members name)
  | colon outer members name, .colon => some (document (.object members name :: outer))
  | afterMember outer members, .comma => some (key outer members)
  | afterMember outer members, .closeObject => some (place (.object members.reverse) outer)
  | _, _ => none

def takeAll? (reader : Reader) (tokens : List Token) : Option Reader :=
  tokens.foldlM take? reader

end Reader

namespace Document

def ofTokens? (tokens : List Token) : Option Document :=
  match (Reader.document []).takeAll? tokens with
  | some (.finished document) => some document
  | _ => none

def read? (text : List Glyph) : Option Document := tokens? text >>= ofTokens?

def ofChars? (text : List Char) : Option Document := read? (text.map .char)

def ofBytes? (bytes : List UInt8) : Option Document := read? (Text.Utf8.glyphs bytes)

end Document
end Json
end Ventilation

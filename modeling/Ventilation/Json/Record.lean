import Ventilation.Json.Value
import Ventilation.Text.Quoted

namespace Ventilation
namespace Json

/-!
# Records

A record is written as an object with named members or as an array of its
fields in their order.  Members that the record does not know are skipped,
whatever they hold.  A record is read from a document, where a field given
twice is a fault, or from a value, where a reason is given for what is wrong.
-/

open Text (Glyph)

/-- Why a value is not what it should be. -/
inductive Mismatch
  | wrongType (found expected : String)
  | unknownWord (found : String) (expected : List String)
  | missingField (name : String)
  | tooShort (length : Nat) (expected : String)
  | tooLong (length : Nat)
  | notSingleMember
  deriving DecidableEq, Repr

namespace Mismatch

/-- A list of words as it is read out. -/
def alternatives : List String → String
  | [first, second] => "`" ++ first ++ "` or `" ++ second ++ "`"
  | words => "one of " ++ String.intercalate ", " (words.map fun word => "`" ++ word ++ "`")

def message : Mismatch → String
  | wrongType found expected => "invalid type: " ++ found ++ ", expected " ++ expected
  | unknownWord found expected =>
    "unknown variant `" ++ found ++ "`, expected " ++ alternatives expected
  | missingField name => "missing field `" ++ name ++ "`"
  | tooShort length expected => "invalid length " ++ toString length ++ ", expected " ++ expected
  | tooLong length =>
    "invalid length " ++ toString length ++ ", expected fewer elements in array"
  | notSingleMember => "invalid value: map, expected map with a single key"

end Mismatch

namespace Value

/-- What a value is, in words. -/
def description : Value → String
  | null => "null"
  | bool value => "boolean `" ++ toString value ++ "`"
  | number (.double negative magnitude) =>
    "floating point `" ++ (Number.double negative magnitude).text ++ "`"
  | number value => "integer `" ++ value.text ++ "`"
  | string text => "string " ++ Text.Quoted.quote text
  | array _ => "sequence"
  | object _ => "map"

def readBool : Value → Except Mismatch Bool
  | bool value => .ok value
  | value => .error (.wrongType value.description "a boolean")

def readOptionalBool : Value → Except Mismatch (Option Bool)
  | null => .ok none
  | value => value.readBool.map some

end Value

/-- One of some words, alone or as the only key of an object that holds null. -/
structure Choice (α : Type) where
  words : List (String × α)

namespace Choice

variable {α : Type}

/-- What a word stands for. -/
def ofWord? (choice : Choice α) (word : String) : Option α :=
  (choice.words.find? fun entry => entry.1 = word).map (·.2)

/-- What a word stands for, or that it stands for nothing. -/
def ofWord (choice : Choice α) (word : String) : Except Mismatch α :=
  match choice.ofWord? word with
  | some meaning => .ok meaning
  | none => .error (.unknownWord word (choice.words.map (·.1)))

/-- Read a choice from a value. -/
def read (choice : Choice α) : Value → Except Mismatch α
  | .string word => choice.ofWord word
  | .object [(word, content)] => do
    let meaning ← choice.ofWord word
    match content with
    | .null => return meaning
    | content => throw (.wrongType content.description "unit")
  | .object _ => .error .notSingleMember
  | value => .error (.wrongType value.description "string or map")

def read? (choice : Choice α) : Document → Option α
  | .string glyphs => text? glyphs >>= choice.ofWord?
  | .object [(key, .null)] => text? key >>= choice.ofWord?
  | _ => none

end Choice

/-- The fields of a record: its name, their names in order, and how many of
them an array has to have. -/
structure Layout where
  name : String
  fields : List String
  leading : Nat

namespace Layout

variable {Draft : Type}

/-- What an array of the fields is called. -/
def arrayName (layout : Layout) : String :=
  "struct " ++ layout.name ++ " with " ++ toString layout.fields.length ++ " elements"

/-- Read a record from a value; `put` reads one field into a draft. -/
def read (layout : Layout) (put : Draft → String → Value → Except Mismatch Draft)
    (empty : Draft) : Value → Except Mismatch Draft
  | .object members =>
    members.foldlM (fun draft (key, value) =>
      if key ∈ layout.fields then put draft key value else .ok draft) empty
  | .array items => do
    let draft ← (layout.fields.zip items).foldlM
      (fun draft (key, value) => put draft key value) empty
    if items.length < layout.leading then throw (.tooShort items.length layout.arrayName)
    if layout.fields.length < items.length then throw (.tooLong items.length)
    return draft
  | value => .error (.wrongType value.description ("struct " ++ layout.name))

/-- Read the members of an object into a draft, given the fields seen so far. -/
def members? (layout : Layout) (put : Draft → String → Document → Option Draft) (draft : Draft)
    (seen : List String) : List Member → Option Draft
  | [] => some draft
  | (key, document) :: rest => do
    let name ← text? key
    if name ∈ layout.fields then
      if name ∈ seen then none
      else
        let next ← put draft name document
        members? layout put next (name :: seen) rest
    else members? layout put draft seen rest

def read? (layout : Layout) (put : Draft → String → Document → Option Draft)
    (empty : Draft) : Document → Option Draft
  | .object members => layout.members? put empty [] members
  | .array items =>
    if items.length < layout.leading ∨ layout.fields.length < items.length then none
    else (layout.fields.zip items).foldlM
      (fun draft (key, document) => put draft key document) empty
  | _ => none

end Layout

namespace Document

def bool? : Document → Option Bool
  | bool value => some value
  | _ => none

def string? : Document → Option String
  | string glyphs => text? glyphs
  | _ => none

/-- A whole number below a bound. -/
def natural? (bound : Nat) : Document → Option Nat
  | numeral spelling => spelling.number? >>= Number.below? bound
  | _ => none

def optional? {α : Type} (read : Document → Option α) : Document → Option (Option α)
  | null => some none
  | document => (read document).map some

end Document
end Json
end Ventilation

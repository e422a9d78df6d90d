import Ventilation.Text.Percent

namespace Ventilation
namespace Web

/-!
# Requests

What is asked for is a path and the fields of a query.  A fragment is never
sent on.  Fields are separated by ampersands; a field without an equals sign
has an empty value.
-/

/-- A request, with the names of its headers as they were written. -/
structure Request where
  method : String
  target : String
  headers : List (String × String)
  deriving Repr

/-- The status of an answer and its text. -/
structure Response where
  status : Nat
  body : String
  deriving DecidableEq, Repr

namespace Response

def bare (status : Nat) : Response := ⟨status, ""⟩

end Response

/-- The text before the first occurrence of a character, and what follows it. -/
def cutAt (separator : Char) (text : List Char) : List Char × Option (List Char) :=
  match text.dropWhile (· ≠ separator) with
  | [] => (text, none)
  | _ :: rest => (text.takeWhile (· ≠ separator), some rest)

/-- The pieces between the occurrences of a character. -/
def pieces (separator : Char) : List Char → List (List Char)
  | [] => [[]]
  | c :: rest =>
    if c = separator then [] :: pieces separator rest
    else match pieces separator rest with
      | [] => [[c]]
      | piece :: others => (c :: piece) :: others

/-- Whether some text stands anywhere in another one. -/
def occurs (part : List Char) : List Char → Bool
  | [] => part.isEmpty
  | c :: rest => part.isPrefixOf (c :: rest) || occurs part rest

/-- The fields of a query, with the names and values that they stand for. -/
def fields (query : List Char) : List (List Char × List Char) :=
  ((pieces '&' query).filter (· ≠ [])).map fun field =>
    let (name, value) := cutAt '=' field
    (Text.Percent.ofForm name, Text.Percent.ofForm (value.getD []))

namespace Request

def address (request : Request) : List Char := (cutAt '#' request.target.toList).1

def path (request : Request) : List Char := (cutAt '?' request.address).1

def query (request : Request) : List (List Char × List Char) :=
  fields ((cutAt '?' request.address).2.getD [])

/-- The first header of a name, in whatever case. -/
def header? (request : Request) (name : String) : Option String :=
  (request.headers.find? fun header => header.1.toLower = name).map (·.2)

end Request

/-- The single value of a field; a field that is given twice is a fault. -/
def single? (name : List Char) (query : List (List Char × List Char)) :
    Option (Option String) :=
  match query.filter fun field => field.1 = name with
  | [] => some none
  | [(_, value)] => some (some (String.ofList value))
  | _ => none

end Web
end Ventilation

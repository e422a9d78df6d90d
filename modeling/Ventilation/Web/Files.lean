import Ventilation.Web.Request

namespace Ventilation
namespace Web

/-!
# Files

Files are found by their path below one folder.  A folder has no text of its
own; the one with a slash behind it stands for the index within it, the one
without is sent there.  A path that would leave the folder finds nothing.
-/

/-- Files with their texts, by the path below the folder that holds them. -/
structure Files where
  entries : List (List String × String)
  deriving Repr

namespace Files

def pathOf (text : String) : List String :=
  ((pieces '/' text.toList).filter (· ≠ [])).map String.ofList

/-- Files from texts by the spelling of their path. -/
def ofList (entries : List (String × String)) : Files :=
  ⟨entries.map fun (name, text) => (pathOf name, text)⟩

def text? (files : Files) (path : List String) : Option String :=
  (files.entries.find? fun entry => entry.1 = path).map (·.2)

def isFolder (files : Files) (path : List String) : Bool :=
  path = [] || files.entries.any fun entry => entry.1 ≠ path && path.isPrefixOf entry.1

/-- The parts of a path below the folder; there are none if it is no text, begins
at the root or climbs. -/
def parts? (path : List Char) : Option (List String) := do
  let text ← Text.Utf8.decode? (Text.Percent.decode (path.dropWhile (· = '/')))
  if text.head? = some '/' then none
  else
    let parts := (pieces '/' text).filter fun part => part ≠ [] && part ≠ ['.']
    if ['.', '.'] ∈ parts then none else some (parts.map String.ofList)

/-- The answer to a request for a path. -/
def find (files : Files) (path : List Char) : Response :=
  match parts? path with
  | none => .bare 404
  | some parts =>
    if files.isFolder parts then
      if path.getLast? = some '/' then
        ((files.text? (parts ++ ["index.html"])).map fun text =>
          Response.mk 200 text).getD (.bare 404)
      else .bare 307
    else ((files.text? parts).map fun text => Response.mk 200 text).getD (.bare 404)

/-- The answer to a request for a file. -/
def answer (files : Files) (request : Request) : Response :=
  if request.method = "GET" then files.find request.path
  else if request.method = "HEAD" then .bare (files.find request.path).status
  else .bare 405

end Files
end Web
end Ventilation

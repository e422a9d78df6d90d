namespace Ventilation

/-!
# Files in a folder

A folder is a list of entries with relative names.  A path leads to an entry if
its steps do: a dot or an empty step stays where it is, two dots go back from a
folder that is there, and nothing leads out of the folder or through a file.
-/

/-- What a name in a folder stands for. -/
inductive FolderItem
  | file (bytes : List UInt8)
  | folder
  deriving DecidableEq, Repr

/-- Names with what they stand for. -/
structure Folder where
  entries : List (List String × FolderItem)

namespace Folder

def steps (path : String) : List String := path.splitOn "/"

def ofNames (entries : List (String × FolderItem)) : Folder :=
  ⟨entries.map fun (name, item) => (steps name, item)⟩

/-- What stands at the end of some steps. -/
def at? (folder : Folder) (place : List String) : Option FolderItem :=
  if place = [] then some .folder
  else match folder.entries.find? fun entry => entry.1 = place with
    | some (_, item) => some item
    | none =>
      if folder.entries.any fun entry => place.isPrefixOf entry.1 then some .folder else none

/-- Follow steps from a place inside the folder. -/
def walk? (folder : Folder) (place : List String) : List String → Option (List String)
  | [] => some place
  | step :: rest =>
    match folder.at? place with
    | some .folder =>
      if step = "" ∨ step = "." then walk? folder place rest
      else if step = ".." then
        if place = [] then none else walk? folder place.dropLast rest
      else walk? folder (place ++ [step]) rest
    | _ => none

def read? (folder : Folder) (path : String) : Option (List UInt8) :=
  match path.toList with
  | [] => none
  | '/' :: _ => none
  | _ => do
    let place ← folder.walk? [] (steps path)
    match folder.at? place with
    | some (.file bytes) => some bytes
    | _ => none

end Folder
end Ventilation

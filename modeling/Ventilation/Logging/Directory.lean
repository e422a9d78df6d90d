import Ventilation.Logging.Flags

namespace Ventilation
namespace Logging

/-!
# The directory of log files

Before a new log file is begun, all log files but the newest are removed.  What
is no log file stays, and so does a directory, whatever its name.
-/

/-- Something in the directory. -/
structure Entry where
  name : String
  modified : Nat
  isDirectory : Bool
  deriving DecidableEq, Repr

/-- The part of a name after its last dot.  There is none in a name without a
dot or with its only dot at the beginning. -/
def extension? (name : List Char) : Option (List Char) :=
  let reversed := name.reverse
  let tail := reversed.takeWhile (· ≠ '.')
  match reversed.drop tail.length with
  | [] => none
  | [_] => none
  | _ :: _ :: _ => if name = ['.', '.'] then none else some tail.reverse

def Entry.isLog (entry : Entry) : Bool := extension? entry.name.toList = some "log".toList

/-- Entries, the most recently modified first. -/
def newestFirst (entries : List Entry) : List Entry :=
  entries.mergeSort fun first second => second.modified ≤ first.modified

/-- The entries that are removed: all that are named like log files except the
newest, as far as they are no directories. -/
def outdated (entries : List Entry) : List Entry :=
  ((newestFirst (entries.filter Entry.isLog)).drop 1).filter fun entry => !entry.isDirectory

def cleanUp (entries : List Entry) : List Entry :=
  let removed := outdated entries
  entries.filter fun entry => !removed.contains entry

/-- What is left in the directory, whether a log file is begun, and the words
for what went wrong. -/
structure Outcome where
  kept : List Entry
  created : Bool
  failure : Option String

/-- Prepare logging: old log files go first, then the flags are read, and only
then is the new file begun. -/
def setUp (entries : List Entry) (flags : Option String) : Outcome :=
  let kept := cleanUp entries
  match (flags.map targets).getD (.ok []) with
  | .ok _ => ⟨kept, true, none⟩
  | .error error => ⟨kept, false, some error.message⟩

end Logging
end Ventilation

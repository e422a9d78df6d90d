import Ventilation.Config.CommandLine

namespace Ventilation
namespace CommandLine

/-!
# The program

The command line, the environment and the configuration file together say how
the ventilation is to be served.  The program checks what they say and shows
the settings that hold.
-/

def UsageError.message : UsageError → String
  | .helpWanted => "Ventilation control server: dampers, fan, interlocks and web clients"
  | .versionWanted => "server_ventilation 0.1.0"
  | .unknownArgument => "error: unexpected argument"
  | .invalidValue => "error: a value is required"
  | .tooManyValues => "error: unexpected value"
  | .argumentConflict => "error: an argument cannot be used twice"
  | .valueValidation => "error: invalid value"

/-- Whether nothing is wrong. -/
def UsageError.isAnswer : UsageError → Bool
  | .helpWanted => true
  | .versionWanted => true
  | _ => false

/-- The flags, a line for each. -/
def flagLines : List String :=
  Key.all.map fun key => "  --" ++ key.flag ++ " (or " ++ key.envName ++ ")"

def environment : IO (String → Option String) := do
  let found ← Key.all.mapM fun key => do return (key.envName, ← IO.getEnv key.envName)
  return fun name => (found.find? fun entry => entry.1 = name).bind (·.2)

def contents (file : String) : IO (Option (List UInt8)) := do
  try
    let bytes ← IO.FS.readBinFile file
    return some bytes.toList
  catch _ => return none

def showSettings (config : Config) : IO UInt32 := do
  let bytes ← contents config.file
  match (config.load fun _ => bytes).settings with
  | .ok settings =>
    IO.println settings.describe
    return 0
  | .error fault =>
    IO.eprintln ("Error: invalid configuration: " ++ fault.message)
    return 1

end CommandLine
end Ventilation

/-- Show the settings that the command line, the environment and the
configuration file lead to. -/
def main (arguments : List String) : IO UInt32 := do
  match Ventilation.CommandLine.read arguments (← Ventilation.CommandLine.environment) with
  | .ok config => Ventilation.CommandLine.showSettings config
  | .error fault =>
    if fault.isAnswer then
      IO.println fault.message
      if fault = .helpWanted then Ventilation.CommandLine.flagLines.forM IO.println
      return 0
    else
      IO.eprintln fault.message
      return 2

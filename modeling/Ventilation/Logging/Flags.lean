import Ventilation.Text.Blank
import Ventilation.Text.Upper

namespace Ventilation
namespace Logging

/-!
# Debug flags

A list of flags, separated by commas, names parts of the program whose debug
messages are wanted.  Blanks around a flag and its case do not matter, empty
flags are skipped, and the first unknown flag spoils the whole list.
-/

/-- A part of the program that can be debugged, or all of them. -/
inductive Flag
  | web
  | vent
  | serial
  | mqtt
  | bus
  | all
  deriving DecidableEq, Repr

namespace Flag

def every : List Flag := [web, vent, serial, mqtt, bus, all]

def name : Flag → String
  | web => "WEB"
  | vent => "VENT"
  | serial => "SERIAL"
  | mqtt => "MQTT"
  | bus => "BUS"
  | all => "ALL"

/-- The sources of messages that a flag turns on. -/
def targets : Flag → List String
  | web => ["lib_vent::fanout", "server_ventilation::ventilation_logic::downstream"]
  | vent => ["lib_vent::core::arbiter"]
  | serial => ["lib_vent::actuator"]
  | mqtt => ["lib_vent::bridge"]
  | bus => ["lib_vent::core::bus"]
  | all => ["lib_vent", "server_ventilation"]

def ofName? (name : List Char) : Option Flag := every.find? fun flag => flag.name.toList = name

end Flag

/-- Why a list of flags is of no use. -/
inductive FlagError
  | unknown (name : String)
  deriving DecidableEq, Repr

namespace FlagError

def message : FlagError → String
  | unknown name => "unknown debug flag '" ++ name ++ "'"

end FlagError

def segments : List Char → List (List Char)
  | [] => [[]]
  | c :: rest =>
    if c = ',' then [] :: segments rest
    else match segments rest with
      | [] => [[c]]
      | segment :: later => (c :: segment) :: later

/-- The name of a flag as it is written, in upper case and without blanks. -/
def normal (segment : List Char) : List Char := Text.toUpper (Text.trim segment)

/-- The targets of one segment. -/
def segmentTargets (segment : List Char) : Except FlagError (List String) :=
  if normal segment = [] then .ok []
  else match Flag.ofName? (normal segment) with
    | some flag => .ok flag.targets
    | none => .error (.unknown (String.ofList (normal segment)))

/-- The targets of some segments, in order. -/
def targetsOf : List (List Char) → Except FlagError (List String)
  | [] => .ok []
  | segment :: rest => do
    let first ← segmentTargets segment
    let later ← targetsOf rest
    return first ++ later

/-- The targets of a list of flags. -/
def targets (flags : String) : Except FlagError (List String) := targetsOf (segments flags.toList)

end Logging
end Ventilation

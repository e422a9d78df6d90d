namespace Ventilation
namespace Controller

/-!
# Messages of the damper controller

The first byte of every message on the controller's bus is its type.  Types
that the firmware does not name are kept with their code, so a code and its
type determine each other.
-/

/-- What a message is about. -/
inductive MessageType
  | damperCommand
  | pressureInfo
  | error
  | updateSettings
  | idAuto
  | idQuestion
  | idInfo
  | idSet
  | unknown (code : UInt8)
  deriving DecidableEq, Repr

namespace MessageType

def ofCode (code : UInt8) : MessageType :=
  match code.toNat with
  | 0 => damperCommand
  | 1 => pressureInfo
  | 2 => error
  | 3 => updateSettings
  | 4 => idAuto
  | 5 => idQuestion
  | 6 => idInfo
  | 7 => idSet
  | _ => unknown code

def code : MessageType → UInt8
  | damperCommand => 0
  | pressureInfo => 1
  | error => 2
  | updateSettings => 3
  | idAuto => 4
  | idQuestion => 5
  | idInfo => 6
  | idSet => 7
  | unknown code => code

/-- The firmware's name for a type. -/
def name : MessageType → String
  | damperCommand => "DamperCmd"
  | pressureInfo => "PressureInfo"
  | error => "Error"
  | updateSettings => "UpdateSettings"
  | idAuto => "PjonIdDoAuto"
  | idQuestion => "PjonIdQuestion"
  | idInfo => "PjonIdInfo"
  | idSet => "PjonIdSet"
  | unknown code => "Unknown(" ++ toString code.toNat ++ ")"

end MessageType

end Controller
end Ventilation

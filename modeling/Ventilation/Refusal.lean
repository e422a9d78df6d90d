namespace Ventilation

/-!
# Refusals

Why a change is not made.  A *prohibited* change is unsafe whoever asks for it;
a *not authorized* change is safe in principle and only lacks a trusted sender.
`Hazard` lists every reason that the rules know.  `Refusal` is what a sender is
told: the kind and a sentence.
-/

/-- The two kinds of refusal. -/
inductive RefusalKind
  | prohibited
  | notAuthorized
  deriving DecidableEq, Repr, Inhabited

namespace RefusalKind

def wireName : RefusalKind → String
  | prohibited => "prohibited"
  | notAuthorized => "notauthorized"

def phrase : RefusalKind → String
  | prohibited => "prohibited"
  | notAuthorized => "not authorized"

end RefusalKind

/-- A refusal as it is told to the sender. -/
structure Refusal where
  kind : RefusalKind
  reason : String
  deriving DecidableEq, Repr, Inhabited

namespace Refusal

/-- Kind and reason in one line. -/
def message (refusal : Refusal) : String := refusal.kind.phrase ++ ": " ++ refusal.reason

end Refusal

/-- Every reason for which a change is refused. -/
inductive Hazard
  /-- The fan would start against closed dampers. -/
  | fanStartsShut
  /-- A remote sender opens all three dampers with the fan running. -/
  | allDampersOpen
  /-- The laser cutter is in use and loses its damper. -/
  | laserDamperCloses
  /-- The laser cutter is in use and another damper takes its air. -/
  | otherDamperOpensFully
  /-- The laser cutter is in use and loses the fan. -/
  | laserLosesFan
  /-- A remote sender takes the fan from the OLGA workplace. -/
  | olgaLosesFan
  /-- A remote sender takes air from the OLGA workplace. -/
  | olgaLosesAir
  /-- A remote sender touches the laser interlock. -/
  | laserLockRemote
  /-- A remote sender touches the OLGA interlock. -/
  | olgaLockRemote
  deriving DecidableEq, Repr, Inhabited

namespace Hazard

/-- Whether trust would help. -/
def kind : Hazard → RefusalKind
  | fanStartsShut => .prohibited
  | allDampersOpen => .notAuthorized
  | laserDamperCloses => .prohibited
  | otherDamperOpensFully => .prohibited
  | laserLosesFan => .prohibited
  | olgaLosesFan => .notAuthorized
  | olgaLosesAir => .notAuthorized
  | laserLockRemote => .prohibited
  | olgaLockRemote => .notAuthorized

/-- The sentence that the sender sees. -/
def reason : Hazard → String
  | fanStartsShut => "Won't start Fan with dampers closed!"
  | allDampersOpen => "Please open only 2 dampers at a time"
  | laserDamperCloses => "Can't close LaserDamper while Lasercutter in use!"
  | otherDamperOpensFully => "Can't fully open OLGA dampers while Lasercutter in use!"
  | laserLosesFan => "Can't stop fan while Lasercutter in use!"
  | olgaLosesFan => "Can't stop fan while OLGA locked it"
  | olgaLosesAir =>
    "Can't close OLGA dampers or open LaserDamper while OLGA needs ventilation"
  | laserLockRemote => "Lock can only be changed with LaserCard"
  | olgaLockRemote => "Not authorized to change OLGA lock"

def refusal (hazard : Hazard) : Refusal := ⟨hazard.kind, hazard.reason⟩

end Hazard

end Ventilation

import Ventilation.Clock
import Ventilation.State

namespace Ventilation
namespace Controller

/-!
# Pacing of damper moves

The motors of the dampers need time, so a command that moves a damper is held
until a fixed span has passed since the last command of any kind.  Commands
that leave the dampers alone are never held.  Nothing is dropped: what is held
is only late.
-/

/-- The span that is kept, and the last command that was sent with its instant. -/
structure Pacing where
  interval : Span
  last : Option (State × Instant)
  deriving DecidableEq, Repr

namespace Pacing

def start (interval : Span) : Pacing := ⟨interval, none⟩

/-- The instant at which a state that is asked for now may be sent, if the clock
can hold it. -/
def readyAt? (pacing : Pacing) (state : State) (now : Instant) : Option Instant :=
  match pacing.last with
  | none => some now
  | some (previous, sent) =>
    if previous.sameDampers state then some now
    else (Instant.after? sent pacing.interval).map (max now)

def sent (pacing : Pacing) (state : State) (instant : Instant) : Pacing :=
  { pacing with last := some (state, instant) }

/-- Send a state as soon as it may be sent, and tell when that is. -/
def send? (pacing : Pacing) (state : State) (now : Instant) : Option (Instant × Pacing) :=
  (pacing.readyAt? state now).map fun ready => (ready, pacing.sent state ready)

end Pacing
end Controller
end Ventilation

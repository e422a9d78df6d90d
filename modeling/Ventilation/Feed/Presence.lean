import Ventilation.Clock
import Ventilation.Feed.Event

namespace Ventilation
namespace Feed

/-!
# What the feeds lead to

A report of the laser cutter sets or releases its interlock.  When the space
has been empty for a while, everything is shut once; reports that it is still
empty change nothing about that.
-/

/-- The last report on presence and the instant at which everything is shut. -/
structure Presence where
  autoOff : Span
  present : Option Bool
  deadline : Option Instant
  deriving DecidableEq, Repr

namespace Presence

def start (autoOff : Span) : Presence := ⟨autoOff, none, none⟩

/-- Take a report; there is no result if the clock cannot hold the deadline. -/
def report? (tracker : Presence) (present : Bool) (now : Instant) : Option Presence :=
  if present then some { tracker with present := some true, deadline := none }
  else if tracker.present = some false then some tracker
  else (now.after? tracker.autoOff).map fun deadline =>
    { tracker with present := some false, deadline := some deadline }

/-- Whether the deadline is reached while the space is empty, and what remains
to be waited for. -/
def expire (tracker : Presence) (now : Instant) : Bool × Presence :=
  if Instant.due tracker.deadline now && tracker.present = some false then
    (true, { tracker with deadline := none })
  else (false, tracker)

end Presence

/-- What the feeds ask for; the feeds are trusted and want no reply. -/
inductive Demand
  | lock (active : Bool)
  | shut
  deriving DecidableEq, Repr

/-- Take a report of a feed; there is no result if the clock cannot hold a deadline. -/
def handle? (tracker : Presence) (event : Event) (now : Instant) :
    Option (Option Demand × Presence) :=
  match event with
  | .laser inUse => some (some (.lock inUse), tracker)
  | .presence present => (tracker.report? present now).map fun next => (none, next)

/-- Take notice that a deadline may be reached. -/
def atDeadline (tracker : Presence) (now : Instant) : Option Demand × Presence :=
  match tracker.expire now with
  | (true, next) => (some .shut, next)
  | (false, next) => (none, next)

end Feed
end Ventilation

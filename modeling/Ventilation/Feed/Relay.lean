import Ventilation.Bus.Hub
import Ventilation.Feed.Presence

namespace Ventilation
namespace Feed

/-!
# The relay

The relay takes the reports of the feeds one after another and publishes what
they lead to.  It is trusted and wants no reply.  While a publishing waits for
room the relay does nothing else.
-/

open Bus (Hub)

inductive RelayPhase
  | waiting
  | publishing (wait : Hub.Wait)
  | ended
  /-- The clock could not hold a deadline. -/
  | crashed
  deriving DecidableEq, Repr

/-- The relay with the reports that it has not taken. -/
structure Relay where
  tracker : Presence
  inbox : List Event
  shutdown : Nat
  phase : RelayPhase
  deriving Repr

namespace Relay

/-- What the relay can turn to when it waits. -/
inductive Branch
  | shutdown
  | report
  | deadline
  deriving DecidableEq, Repr

def start (autoOff : Span) (hub : Hub) : Relay × Hub :=
  let (shutdown, hub) := hub.awaitShutdown
  (⟨.start autoOff, [], shutdown, .waiting⟩, hub)

def publish (hub : Hub) : Option Demand → Option Hub.Wait × Hub
  | none => (none, hub)
  | some (.lock active) => hub.publishLockRequest ⟨.laser, active, .local, none⟩
  | some .shut => hub.publishRequest ⟨State.shut, .local, none⟩

/-- Publish what is demanded and wait if there is no room for it. -/
def demand (relay : Relay) (hub : Hub) (demanded : Option Demand) : Relay × Hub :=
  match publish hub demanded with
  | (none, hub) => (relay, hub)
  | (some wait, hub) => ({ relay with phase := .publishing wait }, hub)

def turn? (relay : Relay) (now : Instant) (hub : Hub) : Branch → Option (Relay × Hub)
  | .shutdown => do
    let hub ← hub.takeShutdown? relay.shutdown
    return ({ relay with phase := .ended }, hub)
  | .report =>
    match relay.inbox with
    | [] => none
    | event :: inbox =>
      match handle? relay.tracker event now with
      | none => some ({ relay with inbox := inbox, phase := .crashed }, hub)
      | some (demanded, tracker) =>
        some ({ relay with inbox := inbox, tracker := tracker }.demand hub demanded)
  | .deadline =>
    if Instant.due relay.tracker.deadline now then
      let (demanded, tracker) := atDeadline relay.tracker now
      some ({ relay with tracker := tracker }.demand hub demanded)
    else none

/-- Go on: with the publishing that waits for room, or with the first branch in
which there is something. -/
def step? (relay : Relay) (now : Instant) (hub : Hub) : Option (Relay × Hub) :=
  match relay.phase with
  | .waiting =>
    [Branch.shutdown, .report, .deadline].findSome? fun branch => relay.turn? now hub branch
  | .publishing wait =>
    if hub.canProceed wait then
      match hub.proceed wait with
      | (true, hub) => some ({ relay with phase := .waiting }, hub)
      | (false, hub) => some (relay, hub)
    else none
  | _ => none

def alarm (relay : Relay) : Option Instant :=
  match relay.phase with
  | .waiting => relay.tracker.deadline
  | _ => none

end Relay
end Feed
end Ventilation

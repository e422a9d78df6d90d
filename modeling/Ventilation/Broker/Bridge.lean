import Ventilation.Broker.Link
import Ventilation.Feed.Relay

namespace Ventilation
namespace Broker

/-!
# The bridge

The bridge connects the hub to the broker of the building.  Reports of the
feeds are relayed as they come; announced states are passed on while there is
a connection and forgotten while there is none.  After a failure the connection
is left alone for a pause, while states and deadlines are still attended to.
-/

open Bus (Hub)
open Feed (Demand Presence Relay Topics)

/-- What the bridge asks of the broker. -/
inductive Deed
  | subscribed (topic : String)
  | republished (state : State)
  | disconnected
  deriving DecidableEq, Repr

inductive BridgePhase
  | waiting
  /-- A demand of the feeds waits for room. -/
  | relaying (wait : Hub.Wait)
  | ended
  /-- The clock could not hold an instant. -/
  | crashed
  deriving DecidableEq, Repr

/-- The bridge with the numbers under which it listens. -/
structure Bridge where
  topics : Topics
  tracker : Presence
  link : Link
  /-- The end of the pause after a failure. -/
  retry : Option Instant
  states : Nat
  shutdown : Nat
  phase : BridgePhase
  deriving Repr

namespace Bridge

/-- What the bridge can turn to when it waits. -/
inductive Branch
  | shutdown
  | state
  | outcome
  | retry
  | deadline
  deriving DecidableEq, Repr

def Branch.all : List Branch := [shutdown, state, outcome, retry, deadline]

def start (topics : Topics) (backoff autoOff : Span) (hub : Hub) : Bridge × Hub :=
  let (states, stateTopic) := hub.states.subscribe
  let (shutdown, hub) := Hub.awaitShutdown { hub with states := stateTopic }
  (⟨topics, .start autoOff, .start backoff, none, states, shutdown, .waiting⟩, hub)

/-- Publish what is demanded and wait if there is no room for it. -/
def demand (bridge : Bridge) (hub : Hub) (demanded : Option Demand) : Bridge × Hub :=
  match Relay.publish hub demanded with
  | (none, hub) => (bridge, hub)
  | (some wait, hub) => ({ bridge with phase := .relaying wait }, hub)

/-- Take a message of the broker.  One that is not understood is ignored. -/
def receive (bridge : Bridge) (now : Instant) (hub : Hub) (topic : String)
    (payload : List UInt8) : Bridge × Hub :=
  match Feed.Event.read bridge.topics topic payload with
  | .ok (some event) =>
    match Feed.handle? bridge.tracker event now with
    | some (demanded, tracker) => { bridge with tracker := tracker }.demand hub demanded
    | none => ({ bridge with phase := .crashed }, hub)
  | _ => (bridge, hub)

def take (bridge : Bridge) (now : Instant) (hub : Hub) : Outcome → Bridge × Hub × List Deed
  | .accepted =>
    ({ bridge with link := bridge.link.up }, hub,
      [.subscribed bridge.topics.laser, .subscribed bridge.topics.presence])
  | .message topic payload =>
    let (bridge, hub) := bridge.receive now hub topic payload
    (bridge, hub, [])
  | .other => (bridge, hub, [])
  | .failed =>
    match Instant.after? now bridge.link.pause with
    | some retry => ({ bridge with link := bridge.link.down, retry := some retry }, hub, [])
    | none => ({ bridge with phase := .crashed }, hub, [])

def turn? (bridge : Bridge) (now : Instant) (hub : Hub) (line : Line) :
    Branch → Option (Bridge × Hub × Line × List Deed)
  | .shutdown => do
    let hub ← hub.takeShutdown? bridge.shutdown
    return ({ bridge with phase := .ended },
      { hub with states := hub.states.unsubscribe bridge.states }, line,
      if bridge.link.connected then [.disconnected] else [])
  | .state => do
    let (state, states) ← hub.states.receive? bridge.states
    return (bridge, { hub with states := states }, line,
      if bridge.link.connected then [.republished state] else [])
  | .outcome =>
    if bridge.retry.isSome then none
    else do
      let (outcome, line) ← line.next?
      let (bridge, hub, deeds) := bridge.take now hub outcome
      return (bridge, hub, line, deeds)
  | .retry =>
    if Instant.due bridge.retry now then some ({ bridge with retry := none }, hub, line, [])
    else none
  | .deadline =>
    if Instant.due bridge.tracker.deadline now then
      let (demanded, tracker) := Feed.atDeadline bridge.tracker now
      let (bridge, hub) := { bridge with tracker := tracker }.demand hub demanded
      some (bridge, hub, line, [])
    else none

/-- Go on: with the demand that waits for room, or with the first branch in
which there is something. -/
def step? (bridge : Bridge) (now : Instant) (hub : Hub) (line : Line) :
    Option (Bridge × Hub × Line × List Deed) :=
  match bridge.phase with
  | .waiting => Branch.all.findSome? fun branch => bridge.turn? now hub line branch
  | .relaying wait =>
    if hub.canProceed wait then
      match hub.proceed wait with
      | (true, hub) => some ({ bridge with phase := .waiting }, hub, line, [])
      | (false, hub) => some (bridge, hub, line, [])
    else none
  | _ => none

def alarm (bridge : Bridge) : Option Instant :=
  match bridge.phase with
  | .waiting => Instant.earlier? bridge.retry bridge.tracker.deadline
  | _ => none

end Bridge
end Broker
end Ventilation

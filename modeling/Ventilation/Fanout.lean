import Ventilation.Bus.Hub

namespace Ventilation

/-!
# The fanout

Every announced state is written down once for all clients.  The last text is
kept, so that a newcomer can be given a snapshot; before the first state that
is an empty message.
-/

open Bus (Hub Broadcast)

inductive FanoutPhase
  | waiting
  /-- A text waits for room at a client. -/
  | sending (wait : Hub.Wait)
  | ended
  deriving DecidableEq, Repr

/-- The fanout with the last text and the numbers under which it listens. -/
structure Fanout where
  last : Broadcast
  states : Nat
  snapshots : Nat
  shutdown : Nat
  phase : FanoutPhase
  deriving Repr

namespace Fanout

/-- What the fanout can turn to when it waits. -/
inductive Branch
  | shutdown
  | state
  | snapshot
  deriving DecidableEq, Repr

def start (hub : Hub) : Fanout × Hub :=
  let (states, stateTopic) := hub.states.subscribe
  let (snapshots, snapshotTopic) := hub.snapshots.subscribe
  let hub := { hub with states := stateTopic, snapshots := snapshotTopic }
  let (shutdown, hub) := hub.awaitShutdown
  (⟨⟨0, Client.emptyText⟩, states, snapshots, shutdown, .waiting⟩, hub)

/-- The text for a state that is announced next. -/
def next (fanout : Fanout) (state : State) : Broadcast :=
  ⟨fanout.last.mark + 1, Client.stateText state⟩

def turn? (fanout : Fanout) (hub : Hub) : Branch → Option (Fanout × Hub)
  | .shutdown => do
    let hub ← hub.takeShutdown? fanout.shutdown
    let hub := { hub with
      states := hub.states.unsubscribe fanout.states
      snapshots := hub.snapshots.unsubscribe fanout.snapshots }
    return ({ fanout with phase := .ended }, hub)
  | .state => do
    let (state, states) ← hub.states.receive? fanout.states
    let broadcast := fanout.next state
    match Hub.publishBroadcast { hub with states := states } broadcast with
    | (none, hub) => return ({ fanout with last := broadcast }, hub)
    | (some wait, hub) => return ({ fanout with last := broadcast, phase := .sending wait }, hub)
  | .snapshot => do
    let (client, snapshots) ← hub.snapshots.receive? fanout.snapshots
    let hub := { hub with snapshots := snapshots }
    return (fanout, (hub.answer? client fanout.last).getD hub)

/-- Go on: with the text that waits for room, or with the first branch in which
there is something. -/
def step? (fanout : Fanout) (hub : Hub) : Option (Fanout × Hub) :=
  match fanout.phase with
  | .waiting => [Branch.shutdown, .state, .snapshot].findSome? fun branch => fanout.turn? hub branch
  | .sending wait =>
    if hub.canProceed wait then
      match hub.proceed wait with
      | (true, hub) => some ({ fanout with phase := .waiting }, hub)
      | (false, hub) => some (fanout, hub)
    else none
  | .ended => none

end Fanout
end Ventilation

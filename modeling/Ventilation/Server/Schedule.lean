import Ventilation.Server.World

namespace Ventilation
namespace Server
namespace World

/-!
# Who goes next

One thread runs everything.  Whoever can take a step stands in a queue; the
first in the queue goes on as long as it can, and those who can go on because
of that join at the end.  Time only passes when nobody can take a step, and it
passes from one alarm to the next, so nothing that is due is late.
-/

open Client (Session)

/-- Everyone, in the order in which they join the queue. -/
def tasks (world : World) : List Task :=
  [.watcher, .part .fanout, .part .actuator, .part .relay, .part .bridge,
    .part .arbiter]
    ++ world.outside.map .outside
    ++ world.connections.map (fun connection => .reader connection.client)
    ++ world.connections.map (fun connection => .session connection.client)

/-- Let everyone who can take a step join the queue. -/
def enlist (world : World) : World :=
  { world with queue := world.queue ++ world.tasks.filter fun task =>
      task ∉ world.queue ∧ (world.step? task).isSome }

def run : Nat → World → World
  | 0, world => world
  | patience + 1, world =>
    match world.queue with
    | [] => world
    | task :: rest =>
      match world.step? task with
      | none => run patience { world with queue := rest }
      | some next => run patience next.enlist

/-! ## How much there is to do -/

def topicLoad {α : Type} (topic : Bus.Topic α) : Nat :=
  topic.publishings.length + topic.boxes.foldl (fun load box => load + box.queue.length) 0

/-- What is on its way through the hub. -/
def hubLoad (hub : Bus.Hub) : Nat :=
  topicLoad hub.requests + topicLoad hub.lockRequests + topicLoad hub.states
    + topicLoad hub.broadcasts + topicLoad hub.snapshots
    + hub.mailboxes.foldl (fun load mailbox => load + mailbox.replies.length) 0

def connectionLoad (connection : Connection) : Nat :=
  connection.reader.inbox.length + match connection.session with
    | some ⟨_, _, _, _, .open pending⟩ => pending.length
    | some ⟨_, _, _, _, .writing _ _ pending⟩ => pending.length
    | _ => 0

/-- More steps than what there is to do can take: everything that is on its way
leads to a few steps of every part and of every client. -/
def workload (world : World) : Nat :=
  let items := hubLoad world.hub
    + world.connections.foldl (fun load connection => load + connectionLoad connection) 0
    + world.link.arrived.length + world.outside.length
    + (world.relay.elim 0 fun relay => relay.inbox.length) + world.line.yields.length
  (items + 8) * (64 + 16 * world.connections.length)

/-- Let everyone go on until nobody can take a step. -/
def settle (world : World) : World :=
  let world := world.enlist
  run world.workload world

/-! ## Time -/

def alarms (world : World) : List Instant :=
  [world.actuator.bind (·.alarm), world.relay.bind (·.alarm), world.bridge.bind (·.alarm),
    world.arbiter.bind (·.alarm)].filterMap id
    ++ world.connections.filterMap (·.reader.alarm)
    ++ world.connections.filterMap fun connection => connection.session.bind Session.alarm

/-- The first alarm after now. -/
def nextAlarm (world : World) : Option Instant :=
  (world.alarms.filter fun alarm => world.now < alarm).min?

/-- Let time pass up to an instant, in at most so many stretches. -/
def passTo (target : Instant) : Nat → World → World
  | 0, world => { world with now := target }
  | stretches + 1, world =>
    match world.nextAlarm with
    | some alarm =>
      if alarm ≤ target then passTo target stretches { world with now := alarm }.settle
      else { world with now := target }
    | none => { world with now := target }

/-- Let a span pass.  Every stretch takes at least a nanosecond. -/
def advance (world : World) (span : Span) : World :=
  passTo (world.now + span) (span + 1) world

end World
end Server
end Ventilation

import Ventilation.Client.Reader
import Ventilation.Broker.Bridge
import Ventilation.Arbiter

namespace Ventilation

/-!
# What is put before the arbiter

Clients and feeds ask the arbiter for things.  What a text asks for and what a
demand of the feeds amounts to are lists of events here, and readers and the
relay put exactly these on the topics of the hub.
-/

open Bus (Hub)
open Client (Command Reader)

namespace Client.Command

def lockEvent (client : Nat) (origin : Origin) (change : Lock × Bool) : ArbiterEvent :=
  .lock ⟨change.1, change.2, origin, some client⟩

/-- What a command of a client asks the arbiter for. -/
def events (client : Nat) (origin : Origin) : Command → List ArbiterEvent
  | .change state => [.request ⟨state, origin, some client⟩]
  | .lock changes => changes.map (lockEvent client origin)

/-- What a text of a client asks the arbiter for. -/
def eventsOf (client : Nat) (origin : Origin) (text : String) : List ArbiterEvent :=
  match read text with
  | .error _ => []
  | .ok command => command.events client origin

end Client.Command

/-- What the feeds ask the arbiter for, if they demand something. -/
def Feed.eventsOf : Option Feed.Demand → List ArbiterEvent
  | none => []
  | some (.lock active) => [.lock ⟨.laser, active, .local, none⟩]
  | some .shut => [.request ⟨State.shut, .local, none⟩]

namespace Bus.Hub

/-- Put an event where the arbiter takes it from.  A deadline comes by itself. -/
def post (hub : Hub) : ArbiterEvent → Option Wait × Hub
  | .request request => hub.publishRequest request
  | .lock request => hub.publishLockRequest request
  | .deadline => (none, hub)

/-- Put events one after another, up to the first that has to wait for room. -/
def postAll (hub : Hub) : List ArbiterEvent → Option (Wait × List ArbiterEvent) × Hub
  | [] => (none, hub)
  | event :: rest =>
    match hub.post event with
    | (none, hub) => hub.postAll rest
    | (some wait, hub) => (some (wait, rest), hub)

end Bus.Hub

section Posting

variable (client : Nat) (origin : Origin) (hub : Hub)

/-- A reader puts changes of interlocks one after another. -/
theorem postAll_lockEvents (changes : List (Lock × Bool)) :
    hub.postAll (changes.map (Command.lockEvent client origin)) =
      ((Reader.publishLocks client origin hub changes).1.map
        (Prod.map id (List.map (Command.lockEvent client origin))),
      (Reader.publishLocks client origin hub changes).2) := by
  induction changes generalizing hub with
  | nil => rfl
  | cons change rest inductionHypothesis =>
    rcases change with ⟨lock, active⟩
    simp only [List.map_cons, Hub.postAll, Hub.post, Command.lockEvent, Reader.publishLocks]
    rcases hub.publishLockRequest ⟨lock, active, origin, some client⟩ with ⟨- | wait, next⟩
    · exact inductionHypothesis next
    · rfl

/-- A reader puts what the command asks for. -/
theorem postAll_events (command : Command) :
    hub.postAll (command.events client origin) =
      ((Reader.publish client origin hub command).1.map
        (Prod.map id (List.map (Command.lockEvent client origin))),
      (Reader.publish client origin hub command).2) := by
  cases command with
  | change state =>
    simp only [Command.events, Hub.postAll, Hub.post, Reader.publish]
    rcases hub.publishRequest ⟨state, origin, some client⟩ with ⟨- | wait, next⟩
    · rfl
    · rfl
  | lock changes => exact postAll_lockEvents client origin hub changes

/-- A reader puts what a text asks for, and nothing if it does not understand. -/
theorem take_eq_postAll (reader : Reader) (now : Instant) (text : String) :
    (reader.take now hub text).2.1 =
      (hub.postAll (Command.eventsOf reader.client reader.origin text)).2 := by
  unfold Reader.take Command.eventsOf
  cases Command.read text with
  | error fault => rfl
  | ok command => exact (congrArg Prod.snd (postAll_events _ _ hub command)).symm

/-- The relay puts what the feeds demand. -/
theorem postAll_demand (demanded : Option Feed.Demand) :
    hub.postAll (Feed.eventsOf demanded) =
      ((Feed.Relay.publish hub demanded).1.map (·, []), (Feed.Relay.publish hub demanded).2) := by
  rcases demanded with - | active | -
  · rfl
  · simp only [Feed.eventsOf, Hub.postAll, Hub.post, Feed.Relay.publish]
    rcases hub.publishLockRequest ⟨.laser, active, .local, none⟩ with ⟨- | wait, next⟩
    · rfl
    · rfl
  · simp only [Feed.eventsOf, Hub.postAll, Hub.post, Feed.Relay.publish]
    rcases hub.publishRequest ⟨State.shut, .local, none⟩ with ⟨- | wait, next⟩
    · rfl
    · rfl

end Posting

/-! ## Turns of the relay and of the bridge -/

/-- A deadline that is reached does not change how long the space has to be empty. -/
theorem Feed.atDeadline_autoOff (tracker : Feed.Presence) (now : Instant) :
    (Feed.atDeadline tracker now).2.autoOff = tracker.autoOff := by
  have same : (Feed.atDeadline tracker now).2 = (tracker.expire now).2 := by
    unfold Feed.atDeadline
    split
    · next expired => rw [expired]
    · next expired => rw [expired]
  rw [same]
  unfold Feed.Presence.expire
  split
  · rfl
  · rfl

namespace Feed.Relay

variable {relay : Relay} {now : Instant} {demanded : Option Demand} (hub : Hub)

theorem demand_eq_postAll (relay : Relay) (demanded : Option Demand) :
    (relay.demand hub demanded).2 = (hub.postAll (eventsOf demanded)).2 ∧
      (relay.demand hub demanded).1.tracker = relay.tracker := by
  rw [postAll_demand]
  unfold demand
  rcases publish hub demanded with ⟨- | wait, next⟩
  · exact ⟨rfl, rfl⟩
  · exact ⟨rfl, rfl⟩

/-- The relay puts what follows from a report. -/
theorem turn_report {event : Event} {later : List Event} {tracker : Presence}
    (next : relay.inbox = event :: later)
    (handled : handle? relay.tracker event now = some (demanded, tracker)) :
    ∃ after, relay.turn? now hub .report = some (after, (hub.postAll (eventsOf demanded)).2) ∧
      after.tracker = tracker := by
  rcases demand_eq_postAll hub { relay with inbox := later, tracker := tracker } demanded with
    ⟨posted, kept⟩
  refine ⟨_, ?_, kept⟩
  simp only [turn?, next, handled]
  exact congrArg some (Prod.ext rfl posted)

/-- The relay puts what follows from a deadline that is reached. -/
theorem turn_deadline (due : Instant.due relay.tracker.deadline now = true) :
    ∃ after, relay.turn? now hub .deadline =
        some (after, (hub.postAll (eventsOf (atDeadline relay.tracker now).1)).2) ∧
      after.tracker = (atDeadline relay.tracker now).2 := by
  rcases demand_eq_postAll hub { relay with tracker := (atDeadline relay.tracker now).2 }
    (atDeadline relay.tracker now).1 with ⟨posted, kept⟩
  refine ⟨_, ?_, kept⟩
  simp only [turn?, due, if_true]
  exact congrArg some (Prod.ext rfl posted)

end Feed.Relay

namespace Broker.Bridge

open Feed (Demand)

variable {bridge : Bridge} {now : Instant} (hub : Hub)

theorem demand_eq_postAll (bridge : Bridge) (demanded : Option Demand) :
    (bridge.demand hub demanded).2 = (hub.postAll (Feed.eventsOf demanded)).2 ∧
      (bridge.demand hub demanded).1.tracker = bridge.tracker := by
  rw [postAll_demand]
  unfold demand
  rcases Feed.Relay.publish hub demanded with ⟨- | wait, next⟩
  · exact ⟨rfl, rfl⟩
  · exact ⟨rfl, rfl⟩

/-- The bridge puts what follows from a deadline that is reached. -/
theorem turn_deadline (due : Instant.due bridge.tracker.deadline now = true) (line : Line) :
    ∃ after, bridge.turn? now hub line .deadline = some (after,
        (hub.postAll (Feed.eventsOf (Feed.atDeadline bridge.tracker now).1)).2, line, []) ∧
      after.tracker = (Feed.atDeadline bridge.tracker now).2 := by
  rcases demand_eq_postAll hub { bridge with tracker := (Feed.atDeadline bridge.tracker now).2 }
    (Feed.atDeadline bridge.tracker now).1 with ⟨posted, kept⟩
  refine ⟨_, ?_, kept⟩
  simp only [turn?, due, if_true]
  exact congrArg (fun hub => some (_, hub, line, [])) posted

end Broker.Bridge

end Ventilation

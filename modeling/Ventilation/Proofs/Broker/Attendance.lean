import Ventilation.Broker.Bridge

namespace Ventilation
namespace Broker

/-!
# What the bridge attends to

A branch that the bridge turns to holds a matter, and what the bridge does about it is
one of a few things: to itself, to the hub, and to the broker.  A report may lead to a
demand, and so may a deadline, and both may have to wait for room.  A report or a
failure may also come to an instant that the clock cannot hold.
-/

open Bus (Hub Topic)
open Feed (Demand Presence Relay)

inductive Matter
  | shutdown
  | state (state : State)
  | outcome (outcome : Outcome)
  | retry
  | deadline
  /-- A demand that waits for room. -/
  | demand
  deriving DecidableEq, Repr

def BridgePhase.runs : BridgePhase → Bool
  | waiting | relaying _ => true
  | ended | crashed => false

namespace Bridge

/-- What the bridge finds in a branch. -/
def finds? (bridge : Bridge) (hub : Hub) (line : Line) : Branch → Option Matter
  | .shutdown => some .shutdown
  | .state => (hub.states.receive? bridge.states).map fun (state, _) => .state state
  | .outcome => line.next?.map fun (outcome, _) => .outcome outcome
  | .retry => some .retry
  | .deadline => some .deadline

/-- All that the bridge can do about a matter, to itself, to the hub and to the broker. -/
inductive Attends (bridge : Bridge) (now : Instant) (hub : Hub) :
    Matter → Bridge → Hub → List Deed → Prop
  | shutdown {next : Hub} (taken : hub.takeShutdown? bridge.shutdown = some next) :
      Attends bridge now hub .shutdown { bridge with phase := .ended }
        { next with states := next.states.unsubscribe bridge.states }
        (if bridge.link.connected then [.disconnected] else [])
  | state {state : State} {states : Topic State}
      (received : hub.states.receive? bridge.states = some (state, states)) :
      Attends bridge now hub (.state state) bridge { hub with states := states }
        (if bridge.link.connected then [.republished state] else [])
  | accepted (free : bridge.retry = none) :
      Attends bridge now hub (.outcome .accepted) { bridge with link := bridge.link.up } hub
        [.subscribed bridge.topics.laser, .subscribed bridge.topics.presence]
  | other (free : bridge.retry = none) :
      Attends bridge now hub (.outcome .other) bridge hub []
  | unread {topic : String} {payload : List UInt8} (free : bridge.retry = none)
      (unread : ∀ event, Feed.Event.read bridge.topics topic payload ≠ .ok (some event)) :
      Attends bridge now hub (.outcome (.message topic payload)) bridge hub []
  | report {topic : String} {payload : List UInt8} {event : Feed.Event}
      {demanded : Option Demand} {tracker : Presence} {phase : BridgePhase}
      (free : bridge.retry = none)
      (read : Feed.Event.read bridge.topics topic payload = .ok (some event))
      (handled : Feed.handle? bridge.tracker event now = some (demanded, tracker))
      (runs : phase.runs = true) :
      Attends bridge now hub (.outcome (.message topic payload))
        { bridge with tracker := tracker, phase := phase } (Relay.publish hub demanded).2 []
  | unhandled {topic : String} {payload : List UInt8} {event : Feed.Event}
      (free : bridge.retry = none)
      (read : Feed.Event.read bridge.topics topic payload = .ok (some event))
      (unhandled : Feed.handle? bridge.tracker event now = none) :
      Attends bridge now hub (.outcome (.message topic payload))
        { bridge with phase := .crashed } hub []
  | failed (free : bridge.retry = none) (held : now + bridge.link.pause < Instant.limit) :
      Attends bridge now hub (.outcome .failed)
        { bridge with link := bridge.link.down, retry := some (now + bridge.link.pause) } hub []
  | unheld (free : bridge.retry = none) (late : Instant.limit ≤ now + bridge.link.pause) :
      Attends bridge now hub (.outcome .failed) { bridge with phase := .crashed } hub []
  | retry (due : Instant.due bridge.retry now = true) :
      Attends bridge now hub .retry { bridge with retry := none } hub []
  | deadline {phase : BridgePhase} (due : Instant.due bridge.tracker.deadline now = true)
      (runs : phase.runs = true) :
      Attends bridge now hub .deadline
        { bridge with tracker := (Feed.atDeadline bridge.tracker now).2, phase := phase }
        (Relay.publish hub (Feed.atDeadline bridge.tracker now).1).2 []
  | demand {wait : Hub.Wait} {phase : BridgePhase} (runs : phase.runs = true) :
      Attends bridge now hub .demand { bridge with phase := phase } (hub.proceed wait).2 []

variable {bridge after : Bridge} {now : Instant} {hub next : Hub} {line further : Line}
  {deeds : List Deed} {matter : Matter}

theorem demand_eq (runs : bridge.phase.runs = true) (hub : Hub) (demanded : Option Demand) :
    ∃ phase : BridgePhase, phase.runs = true ∧
      bridge.demand hub demanded =
        ({ bridge with phase := phase }, (Relay.publish hub demanded).2) := by
  unfold demand
  rcases Relay.publish hub demanded with ⟨- | wait, next⟩
  · exact ⟨bridge.phase, runs, rfl⟩
  · exact ⟨.relaying wait, rfl, rfl⟩

theorem attends_of_take (waiting : bridge.phase = .waiting) (free : bridge.retry = none)
    (outcome : Outcome) :
    bridge.Attends now hub (.outcome outcome) (bridge.take now hub outcome).1
      (bridge.take now hub outcome).2.1 (bridge.take now hub outcome).2.2 := by
  cases outcome with
  | accepted => exact .accepted free
  | other => exact .other free
  | failed =>
    unfold take Instant.after?
    by_cases held : now + bridge.link.pause < Instant.limit
    · simpa only [held, if_true] using .failed free held
    · simpa only [held, if_false] using .unheld free (Nat.not_lt.mp held)
  | message topic payload =>
    simp only [take, receive]
    split
    · next event read =>
      split
      · next demanded tracker handled =>
        obtain ⟨phase, runs, same⟩ :=
          @demand_eq { bridge with tracker := tracker } (by simp [waiting, BridgePhase.runs])
            hub demanded
        rw [same]
        exact .report free read handled runs
      · next unhandled => exact .unhandled free read unhandled
    · next other => exact .unread free fun event read => other event read

/-- Where there is something to turn to, the bridge finds a matter. -/
theorem exists_found {branch : Branch} {outcome : Bridge × Hub × Line × List Deed}
    (turned : bridge.turn? now hub line branch = some outcome) :
    ∃ matter, bridge.finds? hub line branch = some matter := by
  cases branch with
  | shutdown | retry | deadline => exact ⟨_, rfl⟩
  | state =>
    simp only [turn?, Option.bind_eq_bind, Option.bind_eq_some_iff] at turned
    rcases turned with ⟨received, took, -⟩
    exact ⟨_, congrArg (Option.map _) took⟩
  | outcome =>
    simp only [turn?, Option.ite_none_left_eq_some, Option.bind_eq_bind,
      Option.bind_eq_some_iff] at turned
    rcases turned with ⟨-, yielded, yields, -⟩
    exact ⟨_, congrArg (Option.map _) yields⟩

/-- A turn does something about what is found in the branch. -/
theorem attends_of_turn {branch : Branch} (waiting : bridge.phase = .waiting)
    (found : bridge.finds? hub line branch = some matter)
    (turned : bridge.turn? now hub line branch = some (after, next, further, deeds)) :
    bridge.Attends now hub matter after next deeds := by
  cases branch with
  | shutdown =>
    rcases Option.some.inj found with rfl
    simp only [turn?, Option.bind_eq_bind, Option.bind_eq_some_iff, Option.pure_def,
      Option.some.injEq, Prod.mk.injEq] at turned
    rcases turned with ⟨left, taken, rfl, rfl, -, rfl⟩
    exact .shutdown taken
  | state =>
    simp only [turn?, Option.bind_eq_bind, Option.bind_eq_some_iff, Option.pure_def,
      Option.some.injEq, Prod.mk.injEq] at turned
    rcases turned with ⟨⟨state, states⟩, received, rfl, rfl, -, rfl⟩
    simp only [finds?, received, Option.map_some, Option.some.injEq] at found
    exact found ▸ .state received
  | outcome =>
    simp only [turn?, Option.ite_none_left_eq_some, Option.bind_eq_bind,
      Option.bind_eq_some_iff, Option.pure_def, Option.some.injEq, Prod.mk.injEq] at turned
    rcases turned with ⟨free, ⟨outcome, rest⟩, yields, rfl, rfl, -, rfl⟩
    simp only [finds?, yields, Option.map_some, Option.some.injEq] at found
    exact found ▸ attends_of_take waiting (by simpa using free) outcome
  | retry =>
    rcases Option.some.inj found with rfl
    simp only [turn?, Option.ite_none_right_eq_some, Option.some.injEq, Prod.mk.injEq] at turned
    rcases turned with ⟨due, rfl, rfl, -, rfl⟩
    exact .retry due
  | deadline =>
    rcases Option.some.inj found with rfl
    simp only [turn?, Option.ite_none_right_eq_some] at turned
    rcases turned with ⟨due, turned⟩
    obtain ⟨phase, runs, same⟩ :=
      @demand_eq { bridge with tracker := (Feed.atDeadline bridge.tracker now).2 }
        (by simp [waiting, BridgePhase.runs]) hub (Feed.atDeadline bridge.tracker now).1
    simp only [same, Option.some.injEq, Prod.mk.injEq] at turned
    rcases turned with ⟨rfl, rfl, -, rfl⟩
    exact .deadline due runs

/-- To go on with a demand asks nothing of the broker. -/
theorem attends_of_step {wait : Hub.Wait} (relaying : bridge.phase = .relaying wait)
    (stepped : bridge.step? now hub line = some (after, next, further, deeds)) :
    bridge.Attends now hub .demand after next deeds := by
  simp only [step?, relaying, Option.ite_none_right_eq_some] at stepped
  rcases stepped with ⟨-, stepped⟩
  cases proceeded : hub.proceed wait with
  | mk done left =>
    obtain rfl : (hub.proceed wait).2 = left := congrArg Prod.snd proceeded
    rw [proceeded] at stepped
    cases done with
    | true =>
      cases stepped
      exact .demand rfl
    | false =>
      cases stepped
      exact @Attends.demand bridge now hub wait bridge.phase (by rw [relaying]; rfl)

/-- After a turn the bridge is still at work, or it has had the signal, or the clock could
not hold an instant. -/
theorem Attends.fate (attends : bridge.Attends now hub matter after next deeds)
    (running : bridge.phase.runs = true) :
    after.phase.runs = true ∨ (after.phase = .ended ∧ matter = .shutdown) ∨
      (after.phase = .crashed ∧
        ((matter = .outcome .failed ∧ Instant.limit ≤ now + bridge.link.pause) ∨
          ∃ topic payload event, matter = .outcome (.message topic payload) ∧
            Feed.Event.read bridge.topics topic payload = .ok (some event) ∧
            Feed.handle? bridge.tracker event now = none)) := by
  cases attends with
  | shutdown taken => exact .inr (.inl ⟨rfl, rfl⟩)
  | state received | accepted free | other free | unread free | failed free | retry due =>
    exact .inl running
  | report free read handled runs | deadline due runs | demand runs => exact .inl runs
  | unhandled free read unhandled =>
    exact .inr (.inr ⟨rfl, .inr ⟨_, _, _, rfl, read, unhandled⟩⟩)
  | unheld free late => exact .inr (.inr ⟨rfl, .inl ⟨rfl, late⟩⟩)

end Bridge
end Broker
end Ventilation

import Ventilation.Arbiter
import Ventilation.Broker.Bridge
import Ventilation.Proofs.Arbitration.Run
import Ventilation.Proofs.Bus.Traffic

namespace Ventilation
namespace Server

/-!
# The arbiter and the bridge

The arbiter takes what clients and the bridge ask for and announces states; the
bridge takes the announced states and asks for interlocks and for the shut
state.  Each waits where the other has no room.  An exchange is the two of them
with the hub between them.  A move is one step of one of them, by any branch
that has something in it, or something that happens around them: time passes,
the connection to the broker yields something, clients ask, waiting clients go
on, and others listen to the announced states.

What is announced has been asked for: a request leads to one announcement and a
change of an interlock to two, the second of them when the interlock expires.
So the books balance in every exchange that can be reached.
-/

open Broker (Bridge Line)
open Bus (Hub LockRequest Request Topic)
open Bus.Topic (Elsewhere Flow)

/-- The arbiter and the bridge, and what lies between them. -/
structure Exchange where
  now : Instant
  hub : Hub
  line : Line
  bridge : Bridge
  arbiter : Arbiter

/-- Nothing changes at the topics through which the two talk. -/
structure Undisturbed (before after : Hub) : Prop where
  requests_eq : after.requests = before.requests
  lockRequests_eq : after.lockRequests = before.lockRequests
  states_eq : after.states = before.states

namespace Exchange

/-- The bridge and the arbiter begin to listen, after others have begun to
listen to the announced states. -/
def start (capacity others : Nat) (lockTimeout backoff autoOff : Span) (topics : Feed.Topics) :
    Exchange :=
  let hub := Hub.empty capacity
  let crowd := (fun topic : Topic State => topic.subscribe.2)^[others] hub.states
  let (bridge, hub) := Bridge.start topics backoff autoOff { hub with states := crowd }
  let (arbiter, hub, _) := Arbiter.start lockTimeout hub
  ⟨0, hub, ⟨[], false⟩, bridge, arbiter⟩

/-- A publishing that neither of the two waits for. -/
def Foreign (x : Exchange) (wait : Hub.Wait) : Prop :=
  x.bridge.phase ≠ .relaying wait ∧ ∀ client, x.arbiter.phase ≠ .announcing wait client

inductive Move (x : Exchange) : Exchange → Prop
  | passes {later : Instant} (after : x.now ≤ later) : Move x { x with now := later }
  | yields (line : Line) : Move x { x with line := line }
  | asks (request : Request) : Move x { x with hub := (x.hub.publishRequest request).2 }
  | asksLock (request : LockRequest) :
      Move x { x with hub := (x.hub.publishLockRequest request).2 }
  | goesOn {wait : Hub.Wait} (foreign : x.Foreign wait) :
      Move x { x with hub := (x.hub.proceed wait).2 }
  | listens {states : Topic State} (elsewhere : Elsewhere x.bridge.states x.hub.states states) :
      Move x { x with hub := { x.hub with states := states } }
  | stirs {hub : Hub} (undisturbed : Undisturbed x.hub hub) : Move x { x with hub := hub }
  | arbiterTurns {branch : Arbiter.Branch} {arbiter : Arbiter} {hub : Hub} {log : List LogLine}
      (waiting : x.arbiter.phase = .waiting)
      (turned : x.arbiter.turn? x.now x.hub branch = some (arbiter, hub, log)) :
      Move x { x with arbiter := arbiter, hub := hub }
  | arbiterGoesOn {wait : Hub.Wait} {client : Option Nat} {arbiter : Arbiter} {hub : Hub}
      {log : List LogLine} (announcing : x.arbiter.phase = .announcing wait client)
      (stepped : x.arbiter.step? x.now x.hub = some (arbiter, hub, log)) :
      Move x { x with arbiter := arbiter, hub := hub }
  | bridgeTurns {branch : Bridge.Branch} {bridge : Bridge} {hub : Hub} {line : Line}
      {deeds : List Broker.Deed} (waiting : x.bridge.phase = .waiting)
      (turned : x.bridge.turn? x.now x.hub x.line branch = some (bridge, hub, line, deeds)) :
      Move x { x with bridge := bridge, hub := hub, line := line }
  | bridgeGoesOn {wait : Hub.Wait} {bridge : Bridge} {hub : Hub} {line : Line}
      {deeds : List Broker.Deed} (relaying : x.bridge.phase = .relaying wait)
      (stepped : x.bridge.step? x.now x.hub x.line = some (bridge, hub, line, deeds)) :
      Move x { x with bridge := bridge, hub := hub, line := line }

inductive Reachable (capacity : Nat) (lockTimeout : Span) : Exchange → Prop
  | start (others : Nat) (backoff autoOff : Span) (topics : Feed.Topics) :
      Reachable capacity lockTimeout (start capacity others lockTimeout backoff autoOff topics)
  | move {x y : Exchange} (reached : Reachable capacity lockTimeout x) (move : x.Move y) :
      Reachable capacity lockTimeout y

/-- How much has been asked of the arbiter, by clients and by the bridge. -/
def asked (x : Exchange) : Nat := x.hub.requests.nextTicket + x.hub.lockRequests.nextTicket

/-- The arbiter waits for room in the queue of the bridge, while the bridge
waits for room in a queue of the arbiter. -/
structure Standstill (x : Exchange) : Prop where
  arbiter_waits : ∃ ticket client, x.arbiter.phase = .announcing (.state ticket) client ∧
    x.hub.states.WaitsAt ticket x.bridge.states
  bridge_waits : ∃ ticket,
    (x.bridge.phase = .relaying (.lockRequest ticket) ∧
      x.hub.lockRequests.WaitsAt ticket x.arbiter.lockRequests) ∨
    (x.bridge.phase = .relaying (.request ticket) ∧
      x.hub.requests.WaitsAt ticket x.arbiter.requests)

end Exchange

/-! ## What the two do by themselves -/

namespace Exchange

variable {x : Exchange}

/-- A step of the arbiter, which takes the first branch with something in it. -/
theorem Move.of_arbiter {arbiter : Arbiter} {hub : Hub} {log : List LogLine}
    (stepped : x.arbiter.step? x.now x.hub = some (arbiter, hub, log)) :
    x.Move { x with arbiter := arbiter, hub := hub } := by
  cases phase : x.arbiter.phase with
  | waiting =>
    simp only [Arbiter.step?, phase] at stepped
    rcases List.exists_of_findSome?_eq_some stepped with ⟨branch, -, turned⟩
    exact .arbiterTurns phase turned
  | announcing wait client => exact .arbiterGoesOn phase stepped
  | ended => simp [Arbiter.step?, phase] at stepped
  | crashed => simp [Arbiter.step?, phase] at stepped

/-- A step of the bridge, which takes the first branch with something in it. -/
theorem Move.of_bridge {bridge : Bridge} {hub : Hub} {line : Line} {deeds : List Broker.Deed}
    (stepped : x.bridge.step? x.now x.hub x.line = some (bridge, hub, line, deeds)) :
    x.Move { x with bridge := bridge, hub := hub, line := line } := by
  cases phase : x.bridge.phase with
  | waiting =>
    simp only [Bridge.step?, phase] at stepped
    rcases List.exists_of_findSome?_eq_some stepped with ⟨branch, -, turned⟩
    exact .bridgeTurns phase turned
  | relaying wait => exact .bridgeGoesOn phase stepped
  | ended => simp [Bridge.step?, phase] at stepped
  | crashed => simp [Bridge.step?, phase] at stepped

end Exchange

/-! ## What does not disturb -/

namespace Undisturbed

variable {before middle after : Hub}

theorem refl (hub : Hub) : Undisturbed hub hub := ⟨rfl, rfl, rfl⟩

theorem trans (first : Undisturbed before middle) (second : Undisturbed middle after) :
    Undisturbed before after :=
  ⟨second.requests_eq.trans first.requests_eq, second.lockRequests_eq.trans first.lockRequests_eq,
    second.states_eq.trans first.states_eq⟩

theorem tell? {hub next : Hub} {client : Nat} {reply : Client.Reply}
    (told : hub.tell? client reply = some next) : Undisturbed hub next := by
  unfold Hub.tell? at told
  split at told
  · split at told
    · rcases Option.some.inj told with rfl
      exact ⟨rfl, rfl, rfl⟩
    · cases told
  · cases told

theorem tellAll (hub : Hub) (client : Nat) (replies : List Client.Reply) :
    Undisturbed hub (Arbiter.tellAll hub client replies).2 := by
  induction replies generalizing hub with
  | nil => exact refl hub
  | cons reply rest inductionHypothesis =>
    unfold Arbiter.tellAll
    split
    · next told => exact (tell? told).trans (inductionHypothesis _)
    · split
      · exact refl hub
      · exact inductionHypothesis hub

theorem report (hub : Hub) (client : Option Nat) (told : List Client.Reply) :
    Undisturbed hub (Arbiter.report hub client told).1 := by
  unfold Arbiter.report
  split
  · next client reply rest =>
    have quiet := tellAll hub client (reply :: rest)
    split
    · next told =>
      rw [told] at quiet
      exact quiet
    · next told =>
      rw [told] at quiet
      exact quiet
  · exact refl hub

theorem takeShutdown? {hub next : Hub} {id : Nat} (taken : hub.takeShutdown? id = some next) :
    Undisturbed hub next := by
  rcases Option.map_eq_some_iff.mp taken with ⟨⟨value, shutdown⟩, -, rfl⟩
  exact ⟨rfl, rfl, rfl⟩

theorem release (hub : Hub) (client : Option Nat) : Undisturbed hub (hub.release client) := by
  cases client <;> exact ⟨rfl, rfl, rfl⟩

end Undisturbed

end Server
end Ventilation

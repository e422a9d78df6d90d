import Ventilation.Client.Session
import Ventilation.Fanout
import Ventilation.Proofs.Bus.Single
import Ventilation.Proofs.Bus.View
import Ventilation.Proofs.Script
import Mathlib.Logic.Function.Iterate

namespace Ventilation
namespace Server

/-!
# The fanout and the sessions

The fanout writes every announced state down for all clients, and any number of
sessions pass on what they take from it.  A floor is the fanout with the
sessions and the hub between them.  It remembers what the fanout has written
down and, for every session, what the session has in hand, what it has written
and where it had that from.

A step is one step of the fanout, by any branch that has something in it, or of
a session; or time passes, or a client joins.  Around them states are announced,
announcements go on, others listen to the states, and anything happens to the
hub that is no concern of the fanout and the sessions.
-/

open Bus (Broadcast Hub Topic View)
open Bus.Topic (Elsewhere)
open Client (Message Session SessionDeed SessionPhase Sink)

/-! ## Sessions -/

/-- Something that a session writes, and where it has it from. -/
inductive Item
  | snapshot (shown : Broadcast)
  | broadcast (shown : Broadcast)
  | reply (told : Client.Reply)
  | ping
  deriving DecidableEq

namespace Item

def message : Item → Message
  | .snapshot shown => .text shown.text
  | .broadcast shown => .text shown.text
  | .reply told => .text told.text
  | .ping => .ping

/-- Whether it was written down by the fanout. -/
def fromFanout : Item → Bool
  | .snapshot _ => true
  | .broadcast _ => true
  | .reply _ => false
  | .ping => false

end Item

/-- What a session takes in hand when it turns to a branch. -/
def grip (session : Session) (hub : Hub) : Session.Branch → List Item
  | .shutdown => []
  | .snapshot => (hub.view.mail session.client).elim [] fun snapshot =>
      .snapshot snapshot :: (Session.newer snapshot
        (hub.broadcasts.receiveAll session.broadcasts).1).map .broadcast
  | .broadcast =>
    ((hub.broadcasts.receive? session.broadcasts).map fun taken => .broadcast taken.1).toList
  | .reply => (hub.view.replies session.client).head?.toList.map .reply
  | .ping => [.ping]

/-- What a session takes in hand with its next step: only a session that waits
takes anything, from the first branch with something in it. -/
def taking (session : Session) (now : Instant) (sink : Sink) (hub : Hub) : List Item :=
  if session.phase = .open [] then
    (Session.Branch.all.find? fun branch => (session.turn? now sink hub branch).isSome).elim []
      (grip session hub)
  else []

/-- What reaches the client by some deeds. -/
def sent (deeds : List SessionDeed) : List Message :=
  deeds.filterMap fun deed =>
    match deed with
    | .wrote message => some message
    | _ => none

/-- A session with what it has in hand, what it has written and what has reached
the client.  The number is that of the last broadcast before it listened. -/
structure Seat where
  session : Session
  joined : Nat
  hand : List Item
  written : List Item
  said : List Message

namespace Seat

def create (client : Nat) : Seat := ⟨.create client, 0, [], [], []⟩

/-- The seat after a step of the session: what has reached the client leaves the
hand, and what has been taken comes into it. -/
def after (seat : Seat) (latest : Nat) (session : Session) (taken : List Item)
    (said : List Message) : Seat where
  session := session
  joined := if seat.session.phase = .fresh then latest else seat.joined
  hand := seat.hand.drop said.length ++ taken
  written := seat.written ++ seat.hand.take said.length
  said := seat.said ++ said

end Seat

/-! ## The floor -/

/-- The fanout and the sessions of the clients, and what lies between them. -/
structure Floor where
  now : Instant
  hub : Hub
  fanout : Fanout
  /-- All that the fanout has written down, the empty message first. -/
  texts : List Broadcast
  seats : Nat → Option Seat

/-- The topics through which the fanout and the sessions talk do not change, nor
do the snapshots that lie ready. -/
def Spares (before after : Hub) : Prop :=
  after.view = { before.view with replies := after.view.replies }

namespace Floor

/-- The fanout begins to listen, after others have begun to listen to the
announced states. -/
def start (capacity others : Nat) : Floor :=
  let hub := Hub.empty capacity
  let crowd := (fun topic : Topic State => topic.subscribe.2)^[others] hub.states
  let (fanout, hub) := Fanout.start { hub with states := crowd }
  ⟨0, hub, fanout, [fanout.last], fun _ => none⟩

inductive Step (x : Floor) : Floor → Prop
  | passes {later : Instant} (after : x.now ≤ later) : Step x { x with now := later }
  | joins {client : Nat} (vacant : x.seats client = none) :
      Step x { x with
        hub := x.hub.openMailbox client
        seats := Function.update x.seats client (some (.create client)) }
  | fanoutTurns {branch : Fanout.Branch} {fanout : Fanout} {hub : Hub}
      (waiting : x.fanout.phase = .waiting)
      (turned : x.fanout.turn? x.hub branch = some (fanout, hub)) :
      Step x { x with
        hub := hub
        fanout := fanout
        texts := if branch = .state then x.texts ++ [fanout.last] else x.texts }
  | fanoutGoesOn {wait : Hub.Wait} {fanout : Fanout} {hub : Hub}
      (sending : x.fanout.phase = .sending wait)
      (stepped : x.fanout.step? x.hub = some (fanout, hub)) :
      Step x { x with hub := hub, fanout := fanout }
  | sessionGoesOn {client : Nat} {seat : Seat} (sink : Sink) {session : Session} {hub : Hub}
      {deeds : List SessionDeed} (sits : x.seats client = some seat)
      (stepped : seat.session.step? x.now sink x.hub = some (session, hub, deeds)) :
      Step x { x with
        hub := hub
        seats := Function.update x.seats client
          (some (seat.after x.fanout.last.mark session
            (taking seat.session x.now sink x.hub) (sent deeds))) }

inductive Move (x : Floor) : Floor → Prop
  | step {y : Floor} (step : x.Step y) : Move x y
  | announces (state : State) : Move x { x with hub := (x.hub.publishState state).2 }
  | goesOn (ticket : Nat) : Move x { x with hub := (x.hub.proceed (.state ticket)).2 }
  | listens {states : Topic State} (elsewhere : Elsewhere x.fanout.states x.hub.states states) :
      Move x { x with hub := { x.hub with states := states } }
  | stirs {hub : Hub} (spares : Spares x.hub hub) : Move x { x with hub := hub }

inductive Reachable (capacity : Nat) : Floor → Prop
  | start (others : Nat) : Reachable capacity (start capacity others)
  | move {x y : Floor} (reached : Reachable capacity x) (move : x.Move y) : Reachable capacity y

theorem Reachable.later {capacity : Nat} {x y : Floor} (reached : Reachable capacity x)
    (later : Relation.ReflTransGen Move x y) : Reachable capacity y := by
  induction later with
  | refl => exact reached
  | tail _ move inductionHypothesis => exact inductionHypothesis.move move

/-- A step of the fanout, which takes the first branch with something in it. -/
theorem exists_step_of_fanout {x : Floor} {fanout : Fanout} {hub : Hub}
    (stepped : x.fanout.step? x.hub = some (fanout, hub)) :
    ∃ texts, x.Step { x with hub := hub, fanout := fanout, texts := texts } := by
  cases phase : x.fanout.phase with
  | waiting =>
    have chosen := stepped
    simp only [Fanout.step?, phase] at chosen
    rcases List.exists_of_findSome?_eq_some chosen with ⟨branch, -, turned⟩
    exact ⟨_, .fanoutTurns phase turned⟩
  | sending wait => exact ⟨_, .fanoutGoesOn phase stepped⟩
  | ended => simp [Fanout.step?, phase] at stepped

/-! ## Scripts -/

inductive Turn
  | joins (client : Nat)
  | announces (state : State)
  | serves (branch : Fanout.Branch)
  | works (client : Nat) (sink : Sink)

def act (x : Floor) : Turn → Option Floor
  | .joins client =>
    if x.seats client = none then
      some { x with
        hub := x.hub.openMailbox client
        seats := Function.update x.seats client (some (.create client)) }
    else none
  | .announces state => some { x with hub := (x.hub.publishState state).2 }
  | .serves branch =>
    if x.fanout.phase = .waiting then
      (x.fanout.turn? x.hub branch).map fun (fanout, hub) => { x with
        hub := hub
        fanout := fanout
        texts := if branch = .state then x.texts ++ [fanout.last] else x.texts }
    else none
  | .works client sink => do
    let seat ← x.seats client
    let (session, hub, deeds) ← seat.session.step? x.now sink x.hub
    return { x with
      hub := hub
      seats := Function.update x.seats client
        (some (seat.after x.fanout.last.mark session
          (taking seat.session x.now sink x.hub) (sent deeds))) }

theorem step_of_act {x y : Floor} {turn : Turn} (acted : x.act turn = some y) :
    x.Step y ∨ ∃ state, turn = .announces state ∧
      y = { x with hub := (x.hub.publishState state).2 } := by
  cases turn with
  | joins client =>
    simp only [act, Option.ite_none_right_eq_some, Option.some.injEq] at acted
    rcases acted with ⟨vacant, rfl⟩
    exact .inl (.joins vacant)
  | announces state => exact .inr ⟨state, rfl, (Option.some.inj acted).symm⟩
  | serves branch =>
    simp only [act, Option.ite_none_right_eq_some, Option.map_eq_some_iff] at acted
    rcases acted with ⟨waiting, ⟨fanout, hub⟩, turned, rfl⟩
    exact .inl (.fanoutTurns waiting turned)
  | works client sink =>
    simp only [act, Option.bind_eq_bind, Option.bind_eq_some_iff, Option.pure_def,
      Option.some.injEq] at acted
    rcases acted with ⟨seat, sits, ⟨session, hub, deeds⟩, stepped, rfl⟩
    exact .inl (.sessionGoesOn sink sits stepped)

theorem Reachable.act {capacity : Nat} {x y : Floor} {turn : Turn} (acted : x.act turn = some y)
    (reached : Reachable capacity x) : Reachable capacity y := by
  rcases step_of_act acted with step | ⟨state, -, rfl⟩
  · exact reached.move (.step step)
  · exact reached.move (.announces state)

theorem Reachable.script {capacity : Nat} {x y : Floor} {turns : List Turn}
    (reached : Reachable capacity x) (played : turns.foldlM Floor.act x = some y) :
    Reachable capacity y :=
  Script.kept Reachable.act played reached

end Floor

end Server
end Ventilation

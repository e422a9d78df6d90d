import Ventilation.Arbitration
import Ventilation.Bus.Hub
import Ventilation.Log
import Ventilation.Text.Duration

namespace Ventilation

/-!
# The arbiter

The arbiter puts the arbitration to work.  It takes one event at a time from
the hub, announces what comes of it and tells the sender of a refused event the
current state and the reason, as far as there is room for that.  While an
announcement waits for room the arbiter does nothing else.
-/

open Bus (Hub Request LockRequest)

/-- What the arbiter takes notice of. -/
inductive ArbiterEvent
  | request (request : Request)
  | lock (request : LockRequest)
  | deadline
  deriving DecidableEq, Repr

namespace ArbiterEvent

def client : ArbiterEvent → Option Nat
  | request r => r.reply
  | lock r => r.reply
  | deadline => none

end ArbiterEvent

/-- What comes of an event: the arbitration after it, the state that is
announced, and what the sender is told. -/
structure Verdict where
  arb : Arbitration
  announced : Option State
  told : List Client.Reply
  log : List LogLine
  deriving Repr

namespace Arbitration

/-- What a refused sender is told: the current state, if there is one, and why. -/
def refusalReplies (arb : Arbitration) (hazard : Hazard) : List Client.Reply :=
  (arb.state.map Client.Reply.state).toList ++ [.refusal hazard.refusal]

def originName : Origin → String
  | .local => "Local"
  | .remote => "Remote"

def flagsName (locks : Locks) : String :=
  "LockState \x7b laser: " ++ toString locks.laser ++ ", olga: " ++ toString locks.olga ++ " \x7d"

/-- What is logged when the interlocks have changed: nothing if a state is
announced, else that there is none yet. -/
def lockLog (arb : Arbitration) : List LogLine :=
  match arb.state with
  | some _ => []
  | none =>
    [⟨.debug, "arbiter: no state yet, " ++ flagsName arb.locks ++ " rides on the first one"⟩]

/-- Deal with an event; there is no verdict if the clock overflows. -/
def judge (arb : Arbitration) (now : Instant) : ArbiterEvent → Option Verdict
  | .request r =>
    let received : LogLine := ⟨.debug, "arbiter: request " ++ r.state.describe ++ " from "
      ++ originName r.origin⟩
    match arb.request r.state r.origin with
    | .ok (state, next) =>
      some ⟨next, some state, [], [received, ⟨.info, "arbiter: accepted " ++ state.describe⟩]⟩
    | .error hazard =>
      some ⟨arb, none, arb.refusalReplies hazard, [received,
        ⟨.warn, "arbiter: rejected " ++ r.state.describe ++ " from " ++ originName r.origin
          ++ ": " ++ hazard.refusal.message⟩]⟩
  | .lock r =>
    match arb.changeLock r.lock r.active r.origin now with
    | .ok next =>
      some ⟨next, next.state, [],
        ⟨.info, "arbiter: " ++ r.lock.name ++ " lock " ++ (if r.active then "set" else "released")⟩
          :: next.lockLog⟩
    | .error (.refused hazard) =>
      some ⟨arb, none, arb.refusalReplies hazard,
        [⟨.warn, "arbiter: " ++ r.lock.name ++ " lock change from " ++ originName r.origin
          ++ " refused: " ++ hazard.refusal.message⟩]⟩
    | .error .clockOverflow => none
  | .deadline =>
    let (released, next) := arb.expire now
    if released = [] then some ⟨next, none, [], []⟩
    else
      some ⟨next, next.state, [],
        (released.map fun lock => ⟨.info, "arbiter: " ++ lock.name ++ " lock expired"⟩)
          ++ next.lockLog⟩

end Arbitration

inductive ArbiterPhase
  | waiting
  /-- An announcement waits for room; the event of a client is still in hand. -/
  | announcing (wait : Hub.Wait) (client : Option Nat)
  | ended
  /-- The clock could not hold a deadline. -/
  | crashed
  deriving DecidableEq, Repr

/-- The arbiter with the numbers under which it listens. -/
structure Arbiter where
  arb : Arbitration
  requests : Nat
  lockRequests : Nat
  shutdown : Nat
  phase : ArbiterPhase
  deriving Repr

namespace Arbiter

/-- What the arbiter can turn to when it waits. -/
inductive Branch
  | shutdown
  | request
  | lock
  | deadline
  deriving DecidableEq, Repr

def start (lockTimeout : Span) (hub : Hub) : Arbiter × Hub × List LogLine :=
  let (requests, requestTopic) := hub.requests.subscribe
  let (lockRequests, lockTopic) := hub.lockRequests.subscribe
  let hub := { hub with requests := requestTopic, lockRequests := lockTopic }
  let (shutdown, hub) := hub.awaitShutdown
  (⟨.start lockTimeout, requests, lockRequests, shutdown, .waiting⟩, hub,
    [⟨.info, "arbiter: started (lock timeout " ++ Span.text lockTimeout ++ ")"⟩])

/-- Tell a client one thing after another, and whether the last one found room. -/
def tellAll (hub : Hub) (client : Nat) : List Client.Reply → Bool × Hub
  | [] => (true, hub)
  | reply :: rest =>
    match hub.tell? client reply with
    | some next => tellAll next client rest
    | none =>
      match rest with
      | [] => (false, hub)
      | _ :: _ => tellAll hub client rest

def report (hub : Hub) (client : Option Nat) (told : List Client.Reply) : Hub × List LogLine :=
  match client, told with
  | some client, reply :: rest =>
    match tellAll hub client (reply :: rest) with
    | (true, next) => (next, [])
    | (false, next) =>
      (next, [⟨.debug, "arbiter: reply queue full or closed, dropping rejection"⟩])
  | _, _ => (hub, [])

/-- Deal with an event that has been taken from the hub. -/
def deal (arbiter : Arbiter) (now : Instant) (hub : Hub) (event : ArbiterEvent) :
    Arbiter × Hub × List LogLine :=
  match arbiter.arb.judge now event with
  | none => ({ arbiter with phase := .crashed }, hub, [])
  | some verdict =>
    let (hub, more) := report hub event.client verdict.told
    let arbiter := { arbiter with arb := verdict.arb }
    match verdict.announced with
    | none => (arbiter, hub, verdict.log ++ more)
    | some state =>
      match hub.publishState state with
      | (none, hub) => (arbiter, hub, verdict.log ++ more)
      | (some wait, hub) =>
        ({ arbiter with phase := .announcing wait event.client }, hub.hold event.client,
          verdict.log ++ more)

def turn? (arbiter : Arbiter) (now : Instant) (hub : Hub) :
    Branch → Option (Arbiter × Hub × List LogLine)
  | .shutdown => do
    let hub ← hub.takeShutdown? arbiter.shutdown
    let hub := { hub with
      requests := hub.requests.unsubscribe arbiter.requests
      lockRequests := hub.lockRequests.unsubscribe arbiter.lockRequests }
    return ({ arbiter with phase := .ended }, hub, [⟨.info, "arbiter: shutdown"⟩])
  | .request => do
    let (request, requests) ← hub.requests.receive? arbiter.requests
    return arbiter.deal now { hub with requests := requests } (.request request)
  | .lock => do
    let (request, lockRequests) ← hub.lockRequests.receive? arbiter.lockRequests
    return arbiter.deal now { hub with lockRequests := lockRequests } (.lock request)
  | .deadline =>
    if Instant.due arbiter.arb.firstDeadline now then some (arbiter.deal now hub .deadline)
    else none

/-- Go on: with the announcement that waits for room, or with the first branch
in which there is something. -/
def step? (arbiter : Arbiter) (now : Instant) (hub : Hub) :
    Option (Arbiter × Hub × List LogLine) :=
  match arbiter.phase with
  | .waiting =>
    [Branch.shutdown, .request, .lock, .deadline].findSome? fun branch =>
      arbiter.turn? now hub branch
  | .announcing wait client =>
    if hub.canProceed wait then
      match hub.proceed wait with
      | (true, hub) => some ({ arbiter with phase := .waiting }, hub.release client, [])
      | (false, hub) => some (arbiter, hub, [])
    else none
  | .ended => none
  | .crashed => none

def alarm (arbiter : Arbiter) : Option Instant :=
  match arbiter.phase with
  | .waiting => arbiter.arb.firstDeadline
  | _ => none

end Arbiter
end Ventilation

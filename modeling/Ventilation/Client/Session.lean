import Ventilation.Bus.Hub
import Ventilation.Client.Sink

namespace Ventilation
namespace Client

/-!
# Sessions

A session writes to one client: first the snapshot it has asked for, then every
broadcast, the private replies, and a ping now and then.  It listens to the
broadcasts before it asks for the snapshot, so nothing is missed in between;
what the snapshot already covers is left out when it arrives, so the client
never sees an older state after a newer one.

A session ends well when the server shuts down or when nobody is left who could
reply, and badly with the first write that fails.
-/

open Bus (Hub Broadcast)

def pingInterval : Span := Span.ofSeconds 58

/-- A ping later than this after it was due sets the rhythm anew. -/
def pingTolerance : Span := Span.ofMillis 5

/-- What a session writes. -/
inductive Message
  | text (text : String)
  | ping
  deriving DecidableEq, Repr

/-- What a session does that can be seen from outside. -/
inductive SessionDeed
  | wrote (message : Message)
  | farewell
  | ended (failure : Option SessionError)
  deriving DecidableEq, Repr

inductive SessionPhase
  | fresh
  /-- The request for a snapshot waits for room. -/
  | asking (wait : Hub.Wait)
  /-- Messages are still to be written before the session waits for more. -/
  | open (pending : List Message)
  | writing (message : Message) (fate : WriteFate) (pending : List Message)
  | closing (finish : Instant) (heard : Bool)
  | ended
  deriving DecidableEq, Repr

/-- A session with the numbers under which it listens and the instant of its
next ping. -/
structure Session where
  client : Nat
  broadcasts : Nat
  shutdown : Nat
  pingDue : Instant
  phase : SessionPhase
  deriving Repr

namespace Session

/-- What a session can turn to when it waits, in the order of its preference. -/
inductive Branch
  | shutdown
  | snapshot
  | broadcast
  | reply
  | ping
  deriving DecidableEq, Repr

namespace Branch

def all : List Branch := [shutdown, snapshot, broadcast, reply, ping]

end Branch

def create (client : Nat) : Session := ⟨client, 0, 0, 0, .fresh⟩

/-- Begin to wait; the rhythm of the pings starts here. -/
def settleIn (session : Session) (now : Instant) : Session :=
  { session with pingDue := now + pingInterval, phase := .open [] }

/-- Listen to the broadcasts, then ask for the snapshot. -/
def begin (session : Session) (now : Instant) (hub : Hub) : Session × Hub :=
  let (shutdown, hub) := hub.awaitShutdown
  let (broadcasts, topic) := hub.broadcasts.subscribe
  let hub := Hub.setMailbox { hub with broadcasts := topic } session.client
    fun mailbox => { mailbox with awaiting := true }
  let session := { session with broadcasts := broadcasts, shutdown := shutdown }
  match hub.publishSnapshotRequest session.client with
  | (none, hub) => (session.settleIn now, hub)
  | (some wait, hub) => ({ session with phase := .asking wait }, hub)

/-- The instant of the ping after one that is sent now. -/
def nextPing (due now : Instant) : Instant :=
  if due + pingTolerance < now then now + pingInterval else due + pingInterval

/-- The broadcasts that a snapshot does not cover: those behind the very same
broadcast, or all if it is not among them. -/
def newer (snapshot : Broadcast) (queued : List Broadcast) : List Broadcast :=
  match queued.dropWhile fun broadcast => broadcast.mark ≠ snapshot.mark with
  | [] => queued
  | _ :: rest => rest

def quit (session : Session) (hub : Hub) : Session × Hub :=
  ({ session with phase := .ended },
    { hub.setMailbox session.client
        (fun mailbox => { mailbox with listening := false, awaiting := false })
      with shutdown := hub.shutdown.dropOnce session.shutdown })

def unsubscribe (session : Session) (hub : Hub) : Hub :=
  { hub with broadcasts := hub.broadcasts.unsubscribe session.broadcasts }

def fail (session : Session) (hub : Hub) (failure : SessionError) :
    Session × Hub × List SessionDeed :=
  let (session, hub) := session.quit (session.unsubscribe hub)
  (session, hub, [.ended (some failure)])

/-- End in good order: say farewell first. -/
def close (session : Session) (now : Instant) (sink : Sink) (hub : Hub) : Session × Hub :=
  ({ session with phase := .closing (sink.farewellOver now) sink.carriesFarewell },
    session.unsubscribe hub)

def turn? (session : Session) (now : Instant) (sink : Sink) (hub : Hub) :
    Branch → Option (Session × Hub)
  | .shutdown => do
    let hub ← hub.takeShutdown? session.shutdown
    return session.close now sink hub
  | .snapshot => do
    let mailbox ← hub.mailbox? session.client
    let snapshot ← mailbox.snapshot
    let (queued, broadcasts) := hub.broadcasts.receiveAll session.broadcasts
    let hub := Hub.setMailbox { hub with broadcasts := broadcasts } session.client
      fun mailbox => { mailbox with snapshot := none }
    let texts := (snapshot :: newer snapshot queued).map fun broadcast =>
      Message.text broadcast.text
    return ({ session with phase := .open texts }, hub)
  | .broadcast => do
    let (broadcast, broadcasts) ← hub.broadcasts.receive? session.broadcasts
    return ({ session with phase := .open [.text broadcast.text] },
      { hub with broadcasts := broadcasts })
  | .reply => do
    let mailbox ← hub.mailbox? session.client
    match mailbox.replies with
    | reply :: rest =>
      return ({ session with phase := .open [.text reply.text] },
        hub.setMailbox session.client fun mailbox => { mailbox with replies := rest })
    | [] => if hub.mayReply session.client then none else some (session.close now sink hub)
  | .ping =>
    if session.pingDue ≤ now then
      some ({ session with
        pingDue := nextPing session.pingDue now
        phase := .open [.ping] }, hub)
    else none

def finish (session : Session) (hub : Hub) (message : Message) (failure : Option SessionError)
    (pending : List Message) : Session × Hub × List SessionDeed :=
  match failure with
  | none => ({ session with phase := .open pending }, hub, [.wrote message])
  | some failure => session.fail hub failure

def step? (session : Session) (now : Instant) (sink : Sink) (hub : Hub) :
    Option (Session × Hub × List SessionDeed) :=
  match session.phase with
  | .fresh =>
    let (session, hub) := session.begin now hub
    some (session, hub, [])
  | .asking wait =>
    if hub.canProceed wait then
      match hub.proceed wait with
      | (true, hub) => some (session.settleIn now, hub, [])
      | (false, hub) => some (session, hub, [])
    else none
  | .open [] =>
    (Branch.all.findSome? fun branch => session.turn? now sink hub branch).map
      fun (session, hub) => (session, hub, [])
  | .open (message :: pending) =>
    let fate := sink.fate now
    if fate.finish ≤ now then some (session.finish hub message fate.failure pending)
    else some ({ session with phase := .writing message fate pending }, hub, [])
  | .writing message fate pending =>
    if fate.finish ≤ now then some (session.finish hub message fate.failure pending) else none
  | .closing finish heard =>
    if finish ≤ now then
      let (session, hub) := session.quit hub
      some (session, hub, (if heard then [.farewell] else []) ++ [.ended none])
    else none
  | .ended => none

def alarm (session : Session) : Option Instant :=
  match session.phase with
  | .open _ => some session.pingDue
  | .writing _ fate _ => some fate.finish
  | .closing finish _ => some finish
  | _ => none

end Session
end Client
end Ventilation

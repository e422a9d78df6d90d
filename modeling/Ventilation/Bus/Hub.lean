import Ventilation.Bus.Topic
import Ventilation.Client.Message

namespace Ventilation
namespace Bus

/-!
# The hub

All that the parts of the server share: a topic for every kind of event, the
signal to shut down, and for every client the two small queues that only one
part puts something into, private replies and the snapshot for a newcomer.

Private replies have senders: the connection of the client, and every request
of the client that is still somewhere underway or in someone's hands.  When the
last one is gone, no reply can come any more.
-/

structure Request where
  state : State
  origin : Origin
  /-- The client that a refusal is told to. -/
  reply : Option Nat
  deriving DecidableEq, Repr

structure LockRequest where
  lock : Lock
  active : Bool
  origin : Origin
  /-- The client that a refusal is told to. -/
  reply : Option Nat
  deriving DecidableEq, Repr

/-- A text for all clients.  The mark tells two broadcasts of one text apart. -/
structure Broadcast where
  mark : Nat
  text : String
  deriving DecidableEq, Repr

/-- The queues of one client. -/
structure Mailbox where
  client : Nat
  replies : List Client.Reply
  /-- Someone still receives replies. -/
  listening : Bool
  /-- The connection is still there to send requests. -/
  connected : Bool
  snapshot : Option Broadcast
  /-- Someone still receives the snapshot. -/
  awaiting : Bool
  deriving DecidableEq, Repr

def maxReplies : Nat := 10

/-- Everything that is shared. -/
structure Hub where
  requests : Topic Request
  lockRequests : Topic LockRequest
  states : Topic State
  broadcasts : Topic Broadcast
  snapshots : Topic Nat
  shutdown : Topic Unit
  closing : Bool
  mailboxes : List Mailbox
  /-- Clients whose requests someone has in hand. -/
  held : List Nat

namespace Hub

/-- A hub whose queues hold so many values. -/
def empty (capacity : Nat) : Hub where
  requests := .empty capacity
  lockRequests := .empty capacity
  states := .empty capacity
  broadcasts := .empty capacity
  snapshots := .empty capacity
  shutdown := .empty capacity
  closing := false
  mailboxes := []
  held := []

/-! ## Shutting down -/

/-- Wait for the signal to shut down.  Who comes after the signal has it at
once, and is registered all the same. -/
def awaitShutdown (hub : Hub) : Nat × Hub :=
  let (id, shutdown) := hub.shutdown.listenOnce
  let shutdown := if hub.closing then
      { shutdown with shots := shutdown.shots.map fun entry =>
          if entry.1 = id then (id, .value ()) else entry }
    else shutdown
  (id, { hub with shutdown := shutdown })

/-- Give the signal to shut down; only the first time matters. -/
def shutDown (hub : Hub) : Hub :=
  if hub.closing then hub
  else { hub with closing := true, shutdown := (hub.shutdown.publish ()).2.2 }

/-- Take the signal to shut down, if it has been given. -/
def takeShutdown? (hub : Hub) (id : Nat) : Option Hub :=
  (hub.shutdown.takeShot? id).map fun (_, shutdown) => { hub with shutdown := shutdown }

/-! ## Clients -/

def mailbox? (hub : Hub) (client : Nat) : Option Mailbox :=
  hub.mailboxes.find? fun mailbox => mailbox.client = client

def setMailbox (hub : Hub) (client : Nat) (change : Mailbox → Mailbox) : Hub :=
  { hub with
    mailboxes := hub.mailboxes.map fun mailbox =>
      if mailbox.client = client then change mailbox else mailbox }

/-- A new client with a connection and someone who receives its replies. -/
def openMailbox (hub : Hub) (client : Nat) : Hub :=
  { hub with mailboxes := hub.mailboxes ++ [⟨client, [], true, true, none, false⟩] }

/-- Put a reply into the queue of a client, if there is room and someone to
receive it. -/
def tell? (hub : Hub) (client : Nat) (reply : Client.Reply) : Option Hub :=
  match hub.mailbox? client with
  | some mailbox =>
    if mailbox.listening ∧ mailbox.replies.length < maxReplies then
      some (hub.setMailbox client fun mailbox =>
        { mailbox with replies := mailbox.replies ++ [reply] })
    else none
  | none => none

/-- Put a snapshot into the queue of a client, which holds one, if someone is
there to receive it. -/
def answer? (hub : Hub) (client : Nat) (snapshot : Broadcast) : Option Hub :=
  match hub.mailbox? client with
  | some mailbox =>
    if mailbox.awaiting ∧ mailbox.snapshot.isNone then
      some (hub.setMailbox client fun mailbox => { mailbox with snapshot := some snapshot })
    else none
  | none => none

def mayReply (hub : Hub) (client : Nat) : Bool :=
  ((hub.mailbox? client).elim false (·.connected))
    || hub.held.contains client
    || hub.requests.underway.any (·.reply = some client)
    || hub.lockRequests.underway.any (·.reply = some client)

def hold (hub : Hub) (client : Option Nat) : Hub :=
  { hub with held := hub.held ++ client.toList }

def release (hub : Hub) (client : Option Nat) : Hub :=
  match client with
  | some client => { hub with held := hub.held.erase client }
  | none => hub

/-! ## Publishing -/

/-- A publishing that someone waits for. -/
inductive Wait
  | request (ticket : Nat)
  | lockRequest (ticket : Nat)
  | state (ticket : Nat)
  | broadcast (ticket : Nat)
  | snapshot (ticket : Nat)
  deriving DecidableEq, Repr

/-- The wait that a publishing leaves, if it has not ended at once. -/
def waitOf (wait : Nat → Wait) (ticket : Nat) (ended : Option Nat) : Option Wait :=
  if ended.isSome then none else some (wait ticket)

def publishRequest (hub : Hub) (request : Request) : Option Wait × Hub :=
  let (ticket, ended, topic) := hub.requests.publish request
  (waitOf .request ticket ended, { hub with requests := topic })

def publishLockRequest (hub : Hub) (request : LockRequest) : Option Wait × Hub :=
  let (ticket, ended, topic) := hub.lockRequests.publish request
  (waitOf .lockRequest ticket ended, { hub with lockRequests := topic })

def publishState (hub : Hub) (state : State) : Option Wait × Hub :=
  let (ticket, ended, topic) := hub.states.publish state
  (waitOf .state ticket ended, { hub with states := topic })

def publishBroadcast (hub : Hub) (broadcast : Broadcast) : Option Wait × Hub :=
  let (ticket, ended, topic) := hub.broadcasts.publish broadcast
  (waitOf .broadcast ticket ended, { hub with broadcasts := topic })

def publishSnapshotRequest (hub : Hub) (client : Nat) : Option Wait × Hub :=
  let (ticket, ended, topic) := hub.snapshots.publish client
  (waitOf .snapshot ticket ended, { hub with snapshots := topic })

/-- Whether a publishing of a topic has ended or can go on. -/
def canResume {α : Type} (topic : Topic α) (ticket : Nat) : Bool :=
  (topic.publishing? ticket).elim true topic.ready

/-- Whether someone who waits for a publishing can go on. -/
def canProceed (hub : Hub) : Wait → Bool
  | .request ticket => canResume hub.requests ticket
  | .lockRequest ticket => canResume hub.lockRequests ticket
  | .state ticket => canResume hub.states ticket
  | .broadcast ticket => canResume hub.broadcasts ticket
  | .snapshot ticket => canResume hub.snapshots ticket

/-- Go on with a publishing, and tell whether it has ended. -/
def proceed (hub : Hub) : Wait → Bool × Hub
  | .request ticket =>
    let topic := (hub.requests.resume ticket).2
    ((topic.publishing? ticket).isNone, { hub with requests := topic })
  | .lockRequest ticket =>
    let topic := (hub.lockRequests.resume ticket).2
    ((topic.publishing? ticket).isNone, { hub with lockRequests := topic })
  | .state ticket =>
    let topic := (hub.states.resume ticket).2
    ((topic.publishing? ticket).isNone, { hub with states := topic })
  | .broadcast ticket =>
    let topic := (hub.broadcasts.resume ticket).2
    ((topic.publishing? ticket).isNone, { hub with broadcasts := topic })
  | .snapshot ticket =>
    let topic := (hub.snapshots.resume ticket).2
    ((topic.publishing? ticket).isNone, { hub with snapshots := topic })

end Hub
end Bus
end Ventilation

import Ventilation.Bus.Hub
import Ventilation.Clock

namespace Ventilation
namespace Client

/-!
# Readers

A reader takes what comes from one client, one thing after another, and
publishes what its texts ask for under the origin of the client.  A text that
is not understood publishes nothing.  While a request waits for room the next
text has to wait.

An impatient reader also leaves when nothing at all has come for too long, or
when the session of its client is over.
-/

open Bus (Hub Request LockRequest)

/-- The longest that an impatient reader waits for a sign of life. -/
def readLimit : Span := Span.ofSeconds 70

/-- What comes from a client. -/
inductive Inbound
  | text (text : String)
  /-- A message that only shows that the client is there. -/
  | sign
  /-- The client leaves, or says something that nobody can read on from. -/
  | farewell
  deriving DecidableEq, Repr

inductive ReaderPhase
  | waiting
  /-- A request waits for room; interlock changes of the same text follow. -/
  | publishing (wait : Hub.Wait) (rest : List (Lock × Bool))
  | gone
  deriving DecidableEq, Repr

/-- The reader of a client with what it has not taken yet. -/
structure Reader where
  client : Nat
  origin : Origin
  inbox : List Inbound
  /-- When the reader gives up, if it is impatient. -/
  patience : Option Instant
  phase : ReaderPhase
  deriving Repr

/-- What becomes of a text. -/
abbrev Handled := Except MessageError Unit

namespace Reader

def create (client : Nat) (origin : Origin) : Reader := ⟨client, origin, [], none, .waiting⟩

def createImpatient (client : Nat) (origin : Origin) (now : Instant) : Reader :=
  ⟨client, origin, [], some (now + readLimit), .waiting⟩

/-- Publish interlock changes up to the first that has to wait for room. -/
def publishLocks (client : Nat) (origin : Origin) (hub : Hub) :
    List (Lock × Bool) → Option (Hub.Wait × List (Lock × Bool)) × Hub
  | [] => (none, hub)
  | (lock, active) :: rest =>
    match hub.publishLockRequest ⟨lock, active, origin, some client⟩ with
    | (none, hub) => publishLocks client origin hub rest
    | (some wait, hub) => (some (wait, rest), hub)

def publish (client : Nat) (origin : Origin) (hub : Hub) :
    Command → Option (Hub.Wait × List (Lock × Bool)) × Hub
  | .change state =>
    match hub.publishRequest ⟨state, origin, some client⟩ with
    | (wait, hub) => (wait.map fun wait => (wait, []), hub)
  | .lock changes => publishLocks client origin hub changes

/-- Wait for what comes next, with new patience. -/
def await (reader : Reader) (now : Instant) : Reader :=
  { reader with patience := reader.patience.map fun _ => now + readLimit, phase := .waiting }

/-- What follows a publishing: the text is done, or the reader waits. -/
def after (reader : Reader) (now : Instant) :
    Option (Hub.Wait × List (Lock × Bool)) → Reader × List Handled
  | none => (reader.await now, [.ok ()])
  | some (wait, rest) => ({ reader with phase := .publishing wait rest }, [])

def leave (reader : Reader) (hub : Hub) : Reader × Hub × List Handled :=
  ({ reader with phase := .gone },
    hub.setMailbox reader.client fun mailbox => { mailbox with connected := false }, [])

def take (reader : Reader) (now : Instant) (hub : Hub) (text : String) :
    Reader × Hub × List Handled :=
  match Command.read text with
  | .error fault => (reader.await now, hub, [.error fault])
  | .ok command =>
    let (wait, hub) := publish reader.client reader.origin hub command
    let (reader, handled) := reader.after now wait
    (reader, hub, handled)

def step? (reader : Reader) (now : Instant) (sessionOver : Bool) (hub : Hub) :
    Option (Reader × Hub × List Handled) :=
  match reader.phase with
  | .waiting =>
    if reader.patience.isSome && sessionOver then some (reader.leave hub)
    else match reader.inbox with
      | .text text :: inbox => some ({ reader with inbox := inbox }.take now hub text)
      | .sign :: inbox => some ({ reader with inbox := inbox }.await now, hub, [])
      | .farewell :: _ => some (reader.leave hub)
      | [] => if Instant.due reader.patience now then some (reader.leave hub) else none
  | .publishing wait rest =>
    if hub.canProceed wait then
      match hub.proceed wait with
      | (true, hub) =>
        let (wait, hub) := publishLocks reader.client reader.origin hub rest
        let (reader, handled) := reader.after now wait
        some (reader, hub, handled)
      | (false, hub) => some (reader, hub, [])
    else none
  | .gone => none

def alarm (reader : Reader) : Option Instant :=
  match reader.phase with
  | .waiting => reader.patience
  | _ => none

end Reader
end Client
end Ventilation

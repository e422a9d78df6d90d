import Ventilation.Server.Schedule

namespace Ventilation
namespace Server
namespace World

/-!
# What comes from outside

Clients come and go, the feeds report, the controller prints, and others who
share the hub ask for something.  None of this lets anyone take a step; that is
up to `settle`.
-/

open Bus (Hub)
open Client (Reader Session Sink)
open Controller (Actuator Deed Link)
open Feed (Relay)

/-- Nothing runs but the watcher. -/
def empty (capacity : Nat) : World :=
  let hub := Hub.empty capacity
  let (watcher, states) := hub.states.subscribe
  { now := 0
    hub := { hub with states := states }
    watcher := watcher
    fanout := none
    actuator := none
    link := .idle
    relay := none
    bridge := none
    line := .unreachable
    arbiter := none
    outside := []
    connections := []
    queue := []
    seen := [] }

def startPart (settings : Settings) (world : World) : Part → World
  | .fanout =>
    let (fanout, hub) := Fanout.start world.hub
    { world with fanout := some fanout, hub := hub }
  | .actuator =>
    let (actuator, hub, deeds) := Actuator.start settings.target settings.interval world.hub
    note { world with actuator := some actuator, hub := hub } (deeds.map deedHappening)
  | .relay =>
    let (relay, hub) := Relay.start settings.autoOff world.hub
    { world with relay := some relay, hub := hub }
  | .bridge =>
    let (bridge, hub) :=
      Broker.Bridge.start settings.topics settings.backoff settings.autoOff world.hub
    { world with bridge := some bridge, hub := hub }
  | .arbiter =>
    let (arbiter, hub, messages) := Arbiter.start settings.lockTimeout world.hub
    noteLog { world with arbiter := some arbiter, hub := hub } .arbiter messages

/-- The order in which the parts start. -/
def startOrder : List Part := [.fanout, .actuator, .relay, .bridge, .arbiter]

def start (capacity : Nat) (settings : Settings) (parts : List Part) : World :=
  (startOrder.filter fun part => part ∈ parts).foldl (startPart settings) (empty capacity)

/-! ## Clients -/

/-- A client connects; its number is the number of clients before it. -/
def connect (world : World) (origin : Origin) (sink : Sink) (served : Bool) : World :=
  let client := world.connections.length
  { world with
    hub := world.hub.openMailbox client
    connections := world.connections ++
      [⟨.create client origin, if served then some (.create client) else none, sink, false⟩] }

def withConnection (world : World) (client : Nat) (change : Connection → Connection) : World :=
  match world.connection? client with
  | some connection => world.setConnection client (change connection)
  | none => world

def receive (world : World) (client : Nat) (inbound : List Client.Inbound) : World :=
  world.withConnection client fun connection =>
    { connection with
      reader := { connection.reader with inbox := connection.reader.inbox ++ inbound } }

/-- The way to a client changes. -/
def setSink (world : World) (client : Nat) (sink : Sink) : World :=
  world.withConnection client fun connection => { connection with sink := sink }

/-- Take what a client without a session has been told. -/
def drainReplies (world : World) (client : Nat) : List Client.Reply × World :=
  (((world.hub.mailbox? client).map (·.replies)).getD [],
    { world with
      hub := world.hub.setMailbox client fun mailbox => { mailbox with replies := [] } })

/-- A client without a session stops listening. -/
def hangUp (world : World) (client : Nat) : World :=
  { world with
    hub := world.hub.setMailbox client fun mailbox =>
      { mailbox with replies := [], listening := false } }

/-! ## Others -/

/-- Remember a publishing that has to wait. -/
def await (world : World) (published : Option Hub.Wait × Hub) : World :=
  { world with hub := published.2, outside := world.outside ++ published.1.toList }

/-- Someone asks for a state and wants no reply. -/
def request (world : World) (state : State) (origin : Origin) : World :=
  world.await (world.hub.publishRequest ⟨state, origin, none⟩)

def requestLock (world : World) (lock : Lock) (active : Bool) (origin : Origin) : World :=
  world.await (world.hub.publishLockRequest ⟨lock, active, origin, none⟩)

def announce (world : World) (state : State) : World :=
  world.await (world.hub.publishState state)

def report (world : World) (event : Feed.Event) : World :=
  { world with relay := world.relay.map fun relay =>
      { relay with inbox := relay.inbox ++ [event] } }

/-- Whether both ends hold the link. -/
def linkHeld (world : World) : Bool :=
  world.link.plugged && match world.actuator with
    | some actuator =>
      match actuator.phase with
      | .ended => false
      | .failed => false
      | .crashed => false
      | _ => true
    | none => false

def print (world : World) (bytes : List UInt8) : World :=
  { world with link := world.link.print bytes }

def unplug (world : World) : World := { world with link := world.link.unplug }

/-- The signal to shut down is given. -/
def shutDown (world : World) : World := { world with hub := world.hub.shutDown }

end World
end Server
end Ventilation

import Ventilation.Arbiter
import Ventilation.Broker.Bridge
import Ventilation.Client.Reader
import Ventilation.Client.Session
import Ventilation.Controller.Actuator
import Ventilation.Fanout
import Ventilation.Feed.Relay
import Ventilation.Settings

namespace Ventilation
namespace Server

/-!
# Everything that runs

The parts of the server share a hub and take steps one at a time.  A world is
all of them at one instant, with the clients and the controller around them and
a record of what could be seen from outside.  Nothing here says who takes the
next step; that is the business of `Server.Schedule`.
-/

open Bus (Hub)
open Client (Handled Reader Session SessionDeed Sink)
open Controller (Actuator Deed Link)
open Feed (Relay)

/-- The parts of the server that run on their own. -/
inductive Part
  | arbiter
  | fanout
  | actuator
  | relay
  | bridge
  deriving DecidableEq, Repr

/-- What can be seen from outside. -/
inductive Happening
  | announced (state : State)
  | frame (bytes : List UInt8)
  | client (client : Nat) (deed : SessionDeed)
  | handled (client : Nat) (handled : Handled)
  /-- A client that pinged has been answered. -/
  | pong (client : Nat)
  /-- The connection of a client is over: nobody reads from it or writes to it. -/
  | gone (client : Nat)
  | ended (part : Part)
  /-- The actuator could not write. -/
  | writeFailed
  | broker (deed : Broker.Deed)
  | logged (part : Part) (message : LogLine)

/-- A client with the two halves that serve it. -/
structure Connection where
  reader : Reader
  /-- Nobody writes to a client without a session. -/
  session : Option Session
  sink : Sink
  /-- The client shows that it is there when it is pinged. -/
  answersPings : Bool

namespace Connection

def client (connection : Connection) : Nat := connection.reader.client

/-- Whether nobody writes to the client any more. -/
def sessionOver (connection : Connection) : Bool :=
  match connection.session with
  | some session => session.phase = .ended
  | none => false

def hasEnded (connection : Connection) : Bool :=
  connection.sessionOver && connection.reader.phase = .gone

end Connection

/-- Someone who can take a step. -/
inductive Task
  /-- The one who watches the announced states. -/
  | watcher
  | part (part : Part)
  /-- A publishing that began outside. -/
  | outside (wait : Hub.Wait)
  | reader (client : Nat)
  | session (client : Nat)
  deriving DecidableEq, Repr

/-- Everything at one instant. -/
structure World where
  now : Instant
  hub : Hub
  watcher : Nat
  fanout : Option Fanout
  actuator : Option Actuator
  link : Link
  relay : Option Relay
  bridge : Option Broker.Bridge
  line : Broker.Line
  arbiter : Option Arbiter
  outside : List Hub.Wait
  connections : List Connection
  /-- Who takes a step next. -/
  queue : List Task
  seen : List (Instant × Happening)

namespace World

def note (world : World) (happenings : List Happening) : World :=
  { world with seen := world.seen ++ happenings.map fun happening => (world.now, happening) }

/-! ## Steps of the parts -/

def noteLog (world : World) (part : Part) (messages : List LogLine) : World :=
  world.note (messages.map fun message => .logged part message)

def stepFanout? (world : World) : Option World := do
  let fanout ← world.fanout
  let (fanout, hub) ← fanout.step? world.hub
  return note { world with fanout := some fanout, hub := hub }
    (if fanout.phase = .ended then [.ended .fanout] else [])

/-- What can be seen of a deed of the actuator. -/
def deedHappening : Deed → Happening
  | .wrote bytes => .frame bytes
  | .logged message => .logged .actuator message

def stepActuator? (world : World) : Option World := do
  let actuator ← world.actuator
  let (actuator, hub, link, deeds) ← actuator.step? world.now world.hub world.link
  return note { world with actuator := some actuator, hub := hub, link := link }
    (deeds.map deedHappening ++ match actuator.phase with
      | .ended => [.ended .actuator]
      | .failed => [.writeFailed]
      | _ => [])

def stepRelay? (world : World) : Option World := do
  let relay ← world.relay
  let (relay, hub) ← relay.step? world.now world.hub
  return note { world with relay := some relay, hub := hub }
    (if relay.phase = .ended then [.ended .relay] else [])

def stepBridge? (world : World) : Option World := do
  let bridge ← world.bridge
  let (bridge, hub, line, deeds) ← bridge.step? world.now world.hub world.line
  return note { world with bridge := some bridge, hub := hub, line := line }
    (deeds.map .broker ++ if bridge.phase = .ended then [.ended .bridge] else [])

def stepArbiter? (world : World) : Option World := do
  let arbiter ← world.arbiter
  let (arbiter, hub, messages) ← arbiter.step? world.now world.hub
  return note (noteLog { world with arbiter := some arbiter, hub := hub } .arbiter messages)
    (if arbiter.phase = .ended then [.ended .arbiter] else [])

/-! ## Steps of the clients -/

def connection? (world : World) (client : Nat) : Option Connection :=
  world.connections.find? fun connection => connection.client = client

def setConnection (world : World) (client : Nat) (changed : Connection) : World :=
  { world with connections := world.connections.map fun connection =>
      if connection.client = client then changed else connection }

def stepReader? (world : World) (client : Nat) : Option World := do
  let connection ← world.connection? client
  let (reader, hub, handled) ←
    connection.reader.step? world.now connection.sessionOver world.hub
  let connection := { connection with reader := reader }
  return note (setConnection { world with hub := hub } client connection)
    (handled.map (.handled client) ++ if connection.hasEnded then [.gone client] else [])

/-- What a client that answers pings sends back. -/
def answers (connection : Connection) (deeds : List SessionDeed) : List Client.Inbound :=
  if connection.answersPings then
    deeds.filterMap fun deed => if deed = .wrote .ping then some .sign else none
  else []

def stepSession? (world : World) (client : Nat) : Option World := do
  let connection ← world.connection? client
  let session ← connection.session
  let (session, hub, deeds) ← session.step? world.now connection.sink world.hub
  let reader := { connection.reader with
    inbox := connection.reader.inbox ++ answers connection deeds }
  let connection := { connection with session := some session, reader := reader }
  return note (setConnection { world with hub := hub } client connection)
    (deeds.map (.client client) ++ if connection.hasEnded then [.gone client] else [])

/-! ## Any step -/

def stepWatcher? (world : World) : Option World := do
  let (state, states) ← world.hub.states.receive? world.watcher
  return note { world with hub := { world.hub with states := states } } [.announced state]

/-- A step of a publishing that began outside. -/
def stepOutside? (world : World) (wait : Hub.Wait) : Option World :=
  if wait ∈ world.outside ∧ world.hub.canProceed wait then
    match world.hub.proceed wait with
    | (true, hub) => some { world with hub := hub, outside := world.outside.erase wait }
    | (false, hub) => some { world with hub := hub }
  else none

/-- A step of someone, if there is anything to do. -/
def step? (world : World) : Task → Option World
  | .watcher => world.stepWatcher?
  | .part .fanout => world.stepFanout?
  | .part .actuator => world.stepActuator?
  | .part .relay => world.stepRelay?
  | .part .bridge => world.stepBridge?
  | .part .arbiter => world.stepArbiter?
  | .outside wait => world.stepOutside? wait
  | .reader client => world.stepReader? client
  | .session client => world.stepSession? client

end World
end Server
end Ventilation

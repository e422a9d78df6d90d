import Ventilation.Server.Affairs
import Ventilation.Web.Site

namespace Ventilation
namespace Web

/-!
# Peers

A peer is the far end of a connection.  It sees what a session writes to it and
how the connection ends; a mute peer neither looks nor answers.  Messages that
are too large cannot be read, so they end the connection, which the peer is
told.
-/

open Server (Happening World)

/-- The far end of a connection. -/
structure Peer where
  client : Nat
  mute : Bool
  /-- The connection has been cut from the far end. -/
  cut : Bool
  deriving DecidableEq, Repr

/-- What a peer sees. -/
inductive Sight
  | text (text : String)
  | ping
  | pong
  | close
  | gone
  deriving DecidableEq, Repr

namespace Peer

def connect (world : World) (origin : Origin) (mute : Bool) : Peer × World :=
  let client := world.connections.length
  (⟨client, mute, false⟩,
    { world with
      hub := world.hub.openMailbox client
      connections := world.connections ++
        [⟨.createImpatient client origin world.now, some (.create client), .good, !mute⟩] })

def stands (peer : Peer) (world : World) : Bool :=
  !peer.cut && (world.connection? peer.client).any fun connection => !connection.hasEnded

/-- A peer sends a message of some size, a text or something else. -/
def send (peer : Peer) (world : World) (size : Nat) (inbound : Client.Inbound) : World :=
  if peer.cut then world
  else world.receive peer.client [if Client.maxSize < size then .farewell else inbound]

/-- A peer sends a ping, which is answered at once. -/
def ping (peer : Peer) (world : World) : World :=
  if peer.stands world then
    (world.receive peer.client [.sign]).note [.pong peer.client]
  else world

/-- A peer says farewell, which is answered at once; nothing can be written to it
after that. -/
def close (peer : Peer) (world : World) : World :=
  if peer.stands world then
    ((world.receive peer.client [.farewell]).setSink peer.client .closed).note
      [.client peer.client .farewell]
  else world

/-- The connection of a peer is cut. -/
def cutOff (peer : Peer) (world : World) : Peer × World :=
  ({ peer with cut := true },
    (world.receive peer.client [.farewell]).setSink peer.client .closed)

/-- What a peer sees of a happening. -/
def sight? (peer : Peer) (happening : Happening) : Option Sight :=
  if peer.mute || peer.cut then none
  else match happening with
    | .client client (.wrote (.text text)) =>
      if client = peer.client then some (.text text) else none
    | .client client (.wrote .ping) => if client = peer.client then some .ping else none
    | .client client .farewell => if client = peer.client then some .close else none
    | .pong client => if client = peer.client then some .pong else none
    | .gone client => if client = peer.client then some .gone else none
    | _ => none

/-- What a peer has seen, and when. -/
def sights (peer : Peer) (world : World) : List (Instant × Sight) :=
  world.seen.filterMap fun (instant, happening) =>
    (peer.sight? happening).map fun sight => (instant, sight)

end Peer
end Web
end Ventilation

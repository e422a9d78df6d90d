import Ventilation.Bus.Hub
import Ventilation.Controller.Line
import Ventilation.Controller.Pacing
import Ventilation.Log
import Ventilation.Text.Duration

namespace Ventilation
namespace Controller

/-!
# The actuator

Every announced state is sent to the controller as a command, in order and
paced.  While a command is held the actuator does nothing else.  Lines that the
controller prints are read whenever there is nothing to send; they are logged
and have no other effect.
-/

open Bus (Hub)

/-- The serial link: what the controller has printed and nobody has read,
whether it will print nothing more, why nothing more can be read, and whether it
still takes what is written. -/
structure Link where
  arrived : List UInt8
  silent : Bool
  fault : Option String
  plugged : Bool
  deriving DecidableEq, Repr

namespace Link

/-- A controller that has printed nothing. -/
def idle : Link := ⟨[], false, none, true⟩

def print (link : Link) (bytes : List UInt8) : Link :=
  { link with arrived := link.arrived ++ bytes }

/-- The controller closes the side on which it prints. -/
def hush (link : Link) : Link := { link with silent := true }

/-- Nothing can be read any more but what has arrived. -/
def fail (link : Link) (fault : String) : Link := { link with fault := some fault }

def unplug (link : Link) : Link := { link.hush with plugged := false }

end Link

/-- What the actuator does that can be seen from outside. -/
inductive Deed
  | wrote (bytes : List UInt8)
  | logged (message : LogLine)
  deriving DecidableEq, Repr

inductive ActuatorPhase
  | waiting
  /-- A command is held up to an instant. -/
  | holding (state : State) (ready : Instant)
  | ended
  /-- The link cannot be written any more. -/
  | failed
  /-- The clock could not hold an instant. -/
  | crashed
  deriving DecidableEq, Repr

/-- The actuator with the numbers under which it listens and what it has read
of a line. -/
structure Actuator where
  pacing : Pacing
  target : UInt8
  states : Nat
  shutdown : Nat
  reading : Bool
  /-- The beginning of a line. -/
  begun : List UInt8
  /-- Something of the line has been read since the actuator last did anything else. -/
  fresh : Bool
  phase : ActuatorPhase
  deriving Repr

namespace Actuator

/-- What the actuator can turn to when it waits. -/
inductive Branch
  | shutdown
  | state
  | inbound
  deriving DecidableEq, Repr

def start (target : UInt8) (interval : Span) (hub : Hub) : Actuator × Hub × List Deed :=
  let (states, stateTopic) := hub.states.subscribe
  let (shutdown, hub) := Hub.awaitShutdown { hub with states := stateTopic }
  (⟨.start interval, target, states, shutdown, true, [], false, .waiting⟩, hub,
    [.logged ⟨.info, "actuator: driver started (target id " ++ toString target.toNat
      ++ ", min interval " ++ Span.text interval ++ ")"⟩])

/-! ## Sending -/

def leave (actuator : Actuator) (phase : ActuatorPhase) (hub : Hub) : Actuator × Hub :=
  ({ actuator with phase := phase },
    { hub with states := hub.states.unsubscribe actuator.states })

def write (actuator : Actuator) (now : Instant) (hub : Hub) (link : Link) (state : State) :
    Actuator × Hub × List Deed :=
  let bytes := (commandFrame actuator.target state).bytes
  let announced : Deed := .logged ⟨.debug, "actuator: to controller " ++ Text.Hex.list bytes⟩
  if link.plugged then
    ({ actuator with pacing := actuator.pacing.sent state now, phase := .waiting }, hub,
      [announced, .wrote bytes])
  else
    let (actuator, hub) := actuator.leave .failed hub
    (actuator, hub, [announced,
      .logged ⟨.error, "actuator: write to damper controller failed: broken pipe"⟩])

/-- Send a state, at once if it may be sent. -/
def send (actuator : Actuator) (now : Instant) (hub : Hub) (link : Link) (state : State) :
    Actuator × Hub × List Deed :=
  match actuator.pacing.readyAt? state now with
  | none => ({ actuator with phase := .crashed }, hub, [])
  | some ready =>
    if now < ready then
      ({ actuator with phase := .holding state ready }, hub,
        [.logged ⟨.debug, "actuator: holding damper command until interval elapsed"⟩])
    else actuator.write now hub link state

/-! ## Reading -/

/-- What is logged for a line; nothing for an empty one. -/
def lineLog : Line → List Deed
  | .packet direction peer type payload =>
    match type with
    | .error =>
      [.logged ⟨.warn, "actuator: controller " ++ toString peer.toNat ++ " reported an error: "
        ++ Text.Hex.list payload⟩]
    | type =>
      [.logged ⟨.debug, "actuator: " ++ direction.name ++ " " ++ type.name ++ " peer "
        ++ toString peer.toNat ++ " payload " ++ Text.Hex.list payload⟩]
  | .text [] => []
  | .text text => [.logged ⟨.debug, "actuator: from controller: " ++ String.ofList text⟩]

/-- The bytes up to and with the first line feed, and those after it. -/
def cut? : List UInt8 → Option (List UInt8 × List UInt8)
  | [] => none
  | byte :: rest =>
    if byte = 10 then some ([byte], rest)
    else (cut? rest).map fun (line, later) => (byte :: line, later)

/-- Read from the link: a line to its end, or as much of it as has arrived.  The
last line need not end, but it is lost if the actuator has done anything else
since its last byte came, or if reading fails. -/
def read? (actuator : Actuator) (link : Link) : Option (Actuator × Link × List Deed) :=
  let idle := { actuator with begun := [], fresh := false }
  if ¬ actuator.reading then none
  else match link.arrived with
    | [] =>
      match link.fault with
      | some fault => some ({ actuator with reading := false }, link,
          [.logged ⟨.warn, "actuator: reading from controller failed: " ++ fault⟩])
      | none =>
        if ¬ link.silent then none
        else if actuator.fresh then some (idle, link, lineLog (Line.read actuator.begun))
        else some ({ actuator with reading := false }, link,
          [.logged ⟨.warn, "actuator: controller link closed its read side"⟩])
    | byte :: rest =>
      match cut? (byte :: rest) with
      | some (line, later) =>
        some (idle, { link with arrived := later }, lineLog (Line.read (actuator.begun ++ line)))
      | none =>
        some ({ actuator with begun := actuator.begun ++ byte :: rest, fresh := true },
          { link with arrived := [] }, [])

/-! ## Running -/

def turn? (actuator : Actuator) (now : Instant) (hub : Hub) (link : Link) :
    Branch → Option (Actuator × Hub × Link × List Deed)
  | .shutdown => do
    let hub ← hub.takeShutdown? actuator.shutdown
    let (actuator, hub) := actuator.leave .ended hub
    return (actuator, hub, link, [.logged ⟨.info, "actuator: shutdown"⟩])
  | .state => do
    let (state, states) ← hub.states.receive? actuator.states
    let (actuator, hub, deeds) :=
      { actuator with fresh := false }.send now { hub with states := states } link state
    return (actuator, hub, link, deeds)
  | .inbound => do
    let (actuator, link, deeds) ← actuator.read? link
    return (actuator, hub, link, deeds)

/-- Go on: with the command that is held, or with the first branch in which
there is something. -/
def step? (actuator : Actuator) (now : Instant) (hub : Hub) (link : Link) :
    Option (Actuator × Hub × Link × List Deed) :=
  match actuator.phase with
  | .waiting =>
    [Branch.shutdown, .state, .inbound].findSome? fun branch => actuator.turn? now hub link branch
  | .holding state ready =>
    if ready ≤ now then
      let (actuator, hub, deeds) := actuator.write now hub link state
      some (actuator, hub, link, deeds)
    else none
  | _ => none

def alarm (actuator : Actuator) : Option Instant :=
  match actuator.phase with
  | .holding _ ready => some ready
  | _ => none

end Actuator
end Controller
end Ventilation

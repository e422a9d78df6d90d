import Ventilation.State
import Ventilation.Controller.Message

namespace Ventilation
namespace Controller

/-!
# Frames to the damper controller

A frame on the serial link is a start byte, the bus id of its target, the
length of its body and the body.  The controller receives at most sixteen bytes
of body, so the length always fits its byte.
-/

/-- Marks the beginning of a frame. -/
def startByte : UInt8 := 0x3E

/-- The most bytes that the controller receives in one body. -/
def maxBody : Nat := 16

/-- A body that the controller can receive, with its target. -/
structure Frame where
  target : UInt8
  body : List UInt8
  fits : body.length ≤ maxBody

/-- Why there is no frame. -/
inductive FrameError
  | tooLong (length : Nat)
  deriving DecidableEq, Repr

namespace FrameError

def message : FrameError → String
  | tooLong length => "frame body of " ++ toString length
    ++ " bytes exceeds the controller buffer of " ++ toString maxBody

end FrameError

namespace Frame

def make (target : UInt8) (body : List UInt8) : Except FrameError Frame :=
  if fits : body.length ≤ maxBody then .ok ⟨target, body, fits⟩ else .error (.tooLong body.length)

/-- The bytes after the start byte, which are also what the controller dumps. -/
def contents (frame : Frame) : List UInt8 :=
  frame.target :: UInt8.ofNat frame.body.length :: frame.body

def bytes (frame : Frame) : List UInt8 := startByte :: frame.contents

end Frame

def damperCode : Damper → UInt8
  | .closed => 0
  | .full => 1
  | .half => 2

def fanCode : Fan → UInt8
  | .off => 0
  | .on => 1

/-- Nodes are reached over the bus itself. -/
def reachLocal : UInt8 := 0

/-- The body of the command that sets dampers and fan.  Interlocks are no
business of the controller. -/
def commandBody (state : State) : List UInt8 :=
  [MessageType.damperCommand.code, reachLocal, damperCode state.damper1, damperCode state.damper2,
    damperCode state.damper3, fanCode state.fan]

def commandFrame (target : UInt8) (state : State) : Frame :=
  ⟨target, commandBody state, by simp [commandBody, maxBody]⟩

theorem make_commandBody (target : UInt8) (state : State) :
    Frame.make target (commandBody state) = .ok (commandFrame target state) := rfl

end Controller
end Ventilation

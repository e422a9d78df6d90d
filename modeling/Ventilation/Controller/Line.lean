import Ventilation.Controller.Frame
import Ventilation.Text.Hex
import Ventilation.Text.Utf8

namespace Ventilation
namespace Controller

/-!
# Lines from the damper controller

The controller prints a line for every packet on its bus, a mark for the
direction and a hexadecimal dump, and free text otherwise.  A line that only
looks like a dump stays text, so nothing that is printed is lost.
-/

/-- Which way a packet went, seen from the controller. -/
inductive Direction
  | received
  | sent
  deriving DecidableEq, Repr

namespace Direction

/-- The mark at the beginning of a dump. -/
def mark : Direction → Char
  | received => '<'
  | sent => '>'

def name : Direction → String
  | received => "Received"
  | sent => "Sent"

def ofMark? (c : Char) : Option Direction :=
  if c = '<' then some received else if c = '>' then some sent else none

end Direction

/-- What a line says. -/
inductive Line
  | packet (direction : Direction) (peer : UInt8) (type : MessageType) (payload : List UInt8)
  | text (text : List Char)
  deriving DecidableEq, Repr

namespace Line

/-- Carriage returns and line feeds end a line. -/
def isLineEnd (c : Char) : Bool := c = '\r' || c = '\n'

/-- The text without the carriage returns and line feeds at its end. -/
def trimEnd (text : List Char) : List Char := (text.reverse.dropWhile isLineEnd).reverse

/-- The packet that dumped bytes describe: a peer, the length of the message
and a message of exactly that length that has at least its type. -/
def packet? (direction : Direction) : List UInt8 → Option Line
  | peer :: length :: type :: payload =>
    if length.toNat = payload.length + 1 then
      some (.packet direction peer (.ofCode type) payload)
    else none
  | _ => none

/-- The packet that a trimmed line dumps. -/
def dump? : List Char → Option Line
  | [] => none
  | mark :: digits => do
    let direction ← Direction.ofMark? mark
    let bytes ← Text.Hex.decode? digits
    packet? direction bytes

def read (bytes : List UInt8) : Line :=
  let line := trimEnd (Text.Utf8.lossy bytes)
  (dump? line).getD (.text line)

end Line

end Controller
end Ventilation

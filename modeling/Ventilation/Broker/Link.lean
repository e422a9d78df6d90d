import Ventilation.Clock

namespace Ventilation
namespace Broker

/-!
# The link to the broker

Until a first connection has succeeded, a failed attempt is followed by a long
pause.  After that the broker is known to be somewhere, and pauses are short.
-/

/-- The pause after a failure once a connection has succeeded. -/
def shortPause : Span := Span.ofSeconds 1

/-- What is known of the link. -/
structure Link where
  backoff : Span
  connected : Bool
  connectedOnce : Bool
  deriving DecidableEq, Repr

namespace Link

def start (backoff : Span) : Link := ⟨backoff, false, false⟩

def up (link : Link) : Link := { link with connected := true, connectedOnce := true }

/-- The pause that follows a failure. -/
def pause (link : Link) : Span := if link.connectedOnce then shortPause else link.backoff

def down (link : Link) : Link := { link with connected := false }

theorem pause_up (link : Link) : link.up.pause = shortPause := by simp [pause, up]

end Link

/-- What comes out of the connection to the broker when it is looked at. -/
inductive Outcome
  /-- The broker has accepted the connection. -/
  | accepted
  /-- A message on a topic. -/
  | message (topic : String) (payload : List UInt8)
  /-- Something that does not matter. -/
  | other
  /-- There is no connection, or none any more. -/
  | failed
  deriving DecidableEq, Repr

/-- The connection as it is seen from here: what comes out of it next, and
whether every further attempt fails at once. -/
structure Line where
  yields : List Outcome
  refused : Bool
  deriving DecidableEq, Repr

namespace Line

def unreachable : Line := ⟨[], true⟩

def next? (line : Line) : Option (Outcome × Line) :=
  match line.yields with
  | outcome :: rest => some (outcome, { line with yields := rest })
  | [] => if line.refused then some (.failed, line) else none

end Line
end Broker
end Ventilation

namespace Ventilation

/-!
# Time

Instants and spans are counted in nanoseconds.  Instants count from the start
of the process; the clock that provides them holds at most `2 ^ 63 - 1` full
seconds, so an instant beyond that cannot be named and asking for one is a
fault of its own.
-/

/-- Nanoseconds between two instants. -/
abbrev Span := Nat

/-- Nanoseconds since the start of the process. -/
abbrev Instant := Nat

namespace Span

def millisecond : Span := 1000000

def second : Span := 1000000000

def ofMillis (count : Nat) : Span := count * millisecond

def ofSeconds (count : Nat) : Span := count * second

end Span

namespace Instant

/-- The first instant that the clock cannot hold. -/
def limit : Instant := Nat.pow 2 63 * Span.second

/-- The instant a span later, where the clock can hold it. -/
def after? (now : Instant) (span : Span) : Option Instant :=
  if now + span < limit then some (now + span) else none

/-- The words for an instant that the clock cannot hold. -/
def overflowMessage : String := "overflow when adding duration to instant"

theorem after?_eq_some {now later : Instant} {span : Span} (named : now.after? span = some later) :
    later = now + span := by
  unfold after? at named
  split at named
  · exact (Option.some.inj named).symm
  · cases named

def earlier? : Option Instant → Option Instant → Option Instant
  | some first, some second => some (min first second)
  | first, none => first
  | none, second => second

/-- An alarm rings once its instant is reached. -/
def due (alarm : Option Instant) (now : Instant) : Bool :=
  match alarm with
  | some instant => instant ≤ now
  | none => false

end Instant

end Ventilation

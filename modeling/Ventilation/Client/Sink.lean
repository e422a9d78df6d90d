import Ventilation.Clock

namespace Ventilation
namespace Client

/-!
# The way to a client

Messages leave through a sink.  How a sink behaves is looked at when a write
begins: it may write at once, take some time, or fail.  A write that is not
done within its deadline is given up; one that is done just then is in time.
-/

/-- Why a session ends otherwise than in good order. -/
inductive SessionError
  | closed
  | writeTimeout
  | transport (reason : String)
  deriving DecidableEq, Repr

namespace SessionError

def message : SessionError → String
  | closed => "client connection closed"
  | writeTimeout => "write timed out"
  | transport reason => "transport error: " ++ reason

end SessionError

/-- How a sink behaves. -/
inductive Sink
  | good
  /-- Every write takes a span. -/
  | slow (span : Span)
  /-- Every write takes a span, and fails. -/
  | failing (span : Span) (failure : SessionError)
  deriving DecidableEq, Repr

def writeLimit : Span := Span.ofSeconds 9

/-- What becomes of a write: it is over at an instant, and then it has gone out
or the session fails. -/
structure WriteFate where
  finish : Instant
  failure : Option SessionError
  deriving DecidableEq, Repr

namespace Sink

def closed : Sink := failing 0 .closed

def broken : Sink := failing 0 (.transport "broken")

/-- What becomes of a write that begins now. -/
def fate (sink : Sink) (now : Instant) : WriteFate :=
  match sink with
  | good => ⟨now, none⟩
  | slow span =>
    if span ≤ writeLimit then ⟨now + span, none⟩ else ⟨now + writeLimit, some .writeTimeout⟩
  | failing span failure =>
    if span ≤ writeLimit then ⟨now + span, some failure⟩
    else ⟨now + writeLimit, some .writeTimeout⟩

/-- When a farewell that begins now is over, for which there is no deadline. -/
def farewellOver (sink : Sink) (now : Instant) : Instant :=
  match sink with
  | good => now
  | slow span => now + span
  | failing span _ => now + span

/-- Whether a farewell reaches the client. -/
def carriesFarewell : Sink → Bool
  | good => true
  | slow _ => true
  | failing _ _ => false

@[simp] theorem fate_closed (now : Instant) : closed.fate now = ⟨now, some .closed⟩ := rfl

end Sink
end Client
end Ventilation

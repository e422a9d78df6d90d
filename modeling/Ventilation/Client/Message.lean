import Ventilation.Refusal
import Ventilation.State.Record

namespace Ventilation
namespace Client

/-!
# Messages between clients and the server

Every message is an envelope that names a context and carries data.  Clients
ask for a state or for interlocks to change; they are told states and
refusals.
-/

open Json (Document Layout Mismatch Value)

/-- The largest message that is accepted from a client, in bytes. -/
def maxSize : Nat := 512

/-- What a client asks for.  Interlocks are listed in the order of `Lock.all`
and at least one is named. -/
inductive Command
  | change (state : State)
  | lock (changes : List (Lock × Bool))
  deriving DecidableEq, Repr

/-- Why a message is not understood. -/
inductive MessageError
  | tooLarge (size : Nat)
  /-- The text is no envelope. -/
  | notEnvelope
  /-- The data do not suit the context. -/
  | wrongData (mismatch : Mismatch)
  | unknownContext (context : String)
  | noLock
  deriving DecidableEq, Repr

namespace MessageError

/-- The words for an error.  Where the text is no envelope they do not say where
it stops being one. -/
def message : MessageError → String
  | tooLarge size =>
    "message of " ++ toString size ++ " bytes exceeds the limit of " ++ toString maxSize
  | notEnvelope => "malformed message"
  | wrongData mismatch => "malformed message: " ++ mismatch.message
  | unknownContext context => "unknown context '" ++ context ++ "'"
  | noLock => "lock change names no lock"

end MessageError

/-! ## Envelopes -/

/-- A context with its data. -/
structure Envelope where
  context : String
  data : Value

namespace Envelope

/-- The fields of an envelope; an array needs the context. -/
def layout : Layout := ⟨"Envelope", ["ctx", "data"], 1⟩

/-- The fields of an envelope that have been read so far. -/
structure Draft where
  context : Option String
  data : Option Value

/-- Read one field.  The envelope itself is one bracket around the data. -/
def Draft.put (draft : Draft) (key : String) (document : Document) : Option Draft :=
  match key with
  | "ctx" => document.string?.map fun context => { draft with context := some context }
  | "data" => (document.value? (Json.maxDepth - 1)).map fun data => { draft with data := some data }
  | _ => some draft

/-- Read an envelope from a document; data that are left out are null. -/
def ofDocument? (document : Document) : Option Envelope := do
  let draft ← layout.read? Draft.put ⟨none, none⟩ document
  let context ← draft.context
  return ⟨context, draft.data.getD .null⟩

end Envelope

/-! ## Interlock changes -/

/-- The fields of an interlock change; an array needs both. -/
def lockLayout : Layout := ⟨"LockPayload", ["LaserLock", "OLGALock"], 2⟩

def putLock (draft : PerLock (Option Bool)) (key : String) (value : Value) :
    Except Mismatch (PerLock (Option Bool)) := do
  let flag ← value.readOptionalBool
  match key with
  | "LaserLock" => return { draft with laser := flag }
  | "OLGALock" => return { draft with olga := flag }
  | _ => return draft

def lockChanges (value : Value) : Except Mismatch (List (Lock × Bool)) := do
  let draft ← lockLayout.read putLock ⟨none, none⟩ value
  return (draft.laser.map fun flag => (Lock.laser, flag)).toList
    ++ (draft.olga.map fun flag => (Lock.olga, flag)).toList

/-! ## Reading -/

namespace Command

def ofEnvelope (envelope : Envelope) : Except MessageError Command :=
  match envelope.context with
  | "ventchange" =>
    match State.ofValue envelope.data with
    | .ok state => .ok (.change state)
    | .error mismatch => .error (.wrongData mismatch)
  | "lockchange" =>
    match lockChanges envelope.data with
    | .ok [] => .error .noLock
    | .ok changes => .ok (.lock changes)
    | .error mismatch => .error (.wrongData mismatch)
  | context => .error (.unknownContext context)

def read (text : String) : Except MessageError Command :=
  if maxSize < text.utf8ByteSize then .error (.tooLarge text.utf8ByteSize)
  else
    match Document.ofChars? text.toList >>= Envelope.ofDocument? with
    | none => .error .notEnvelope
    | some envelope => ofEnvelope envelope

end Command

/-! ## Writing -/

def envelope (context : String) (data : Document) : Document :=
  .object [Document.field "ctx" (.ofText context), Document.field "data" data]

/-- What a client is told in private. -/
inductive Reply
  | state (state : State)
  | refusal (refusal : Refusal)
  deriving DecidableEq, Repr

def stateText (state : State) : String := (envelope "ventchange" state.document).write

def refusalText (refusal : Refusal) : String :=
  (envelope "error" (.object [Document.field "Type" (.ofText refusal.kind.wireName),
    Document.field "Msg" (.ofText refusal.reason)])).write

def Reply.text : Reply → String
  | state current => stateText current
  | refusal given => refusalText given

/-- What a client is shown before any state has been accepted. -/
def emptyText : String := (envelope "ventchange" (.object [])).write

end Client
end Ventilation

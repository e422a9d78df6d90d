import Ventilation.Clock
import Ventilation.Feed.Event
import Ventilation.State
import Ventilation.Text.Duration
import Ventilation.Text.Natural

namespace Ventilation

/-!
# Settings

Everything that the server is told when it starts.  Checking settings changes
at most the token: an empty one is the same as none.
-/

/-- What the server is told when it starts. -/
structure Settings where
  port : Nat
  broker : String
  clientId : String
  /-- The pause after a failed connection, until one has succeeded. -/
  backoff : Span
  topics : Feed.Topics
  token : Option String
  tty : String
  baud : Nat
  target : UInt8
  /-- The least span between two commands that move dampers. -/
  interval : Span
  lockTimeout : Span
  autoOff : Span
  staticDir : Option String
  deriving DecidableEq, Repr

/-- Why settings are of no use. -/
inductive SettingsError
  | zero (name : String)
  | empty (name : String)
  | invalidBroker (address : String)
  deriving DecidableEq, Repr

namespace SettingsError

def message : SettingsError → String
  | zero name => name ++ " must be greater than zero"
  | empty name => name ++ " must not be empty"
  | invalidBroker address =>
    "invalid MQTT broker address '" ++ address ++ "', expected tcp://host:port"

end SettingsError

namespace Settings

def standard : Settings where
  port := 8080
  broker := "tcp://mqtt.realraum.at:1883"
  clientId := "ventilation"
  backoff := Span.ofSeconds 300
  topics := .standard
  token := none
  tty := "/dev/ttyACM0"
  baud := 9600
  target := 1
  interval := Span.ofMillis 1500
  lockTimeout := Span.ofSeconds 1800
  autoOff := Span.ofSeconds 120
  staticDir := none

/-! ## The address of the broker -/

def scheme : List Char := "tcp://".toList

def withoutScheme (address : List Char) : List Char :=
  if scheme.isPrefixOf address then address.drop scheme.length else address

/-- The text before and after the last colon. -/
def splitLastColon? : List Char → Option (List Char × List Char)
  | [] => none
  | c :: rest =>
    match splitLastColon? rest with
    | some (before, after) => some (c :: before, after)
    | none => if c = ':' then some ([], rest) else none

/-- Host and port of a broker. -/
def brokerAddress (address : String) : Except SettingsError (String × Nat) :=
  let found := do
    let (host, port) ← splitLastColon? (withoutScheme address.toList)
    if host = [] then none
    else (Text.Natural.read? (Nat.pow 2 16) port).map fun number => (String.ofList host, number)
  match found with
  | some pair => .ok pair
  | none => .error (.invalidBroker address)

/-! ## Checking -/

/-- An empty token is none. -/
def normalToken : Option String → Option String
  | some token => if token = "" then none else some token
  | none => none

/-- The settings with an empty token removed, or the first thing that is wrong. -/
def validate (settings : Settings) : Except SettingsError Settings := do
  if settings.lockTimeout = 0 then throw (.zero "lock_timeout")
  if settings.autoOff = 0 then throw (.zero "auto_off_timeout")
  if settings.backoff = 0 then throw (.zero "mqtt_reconnect_backoff")
  if settings.clientId = "" then throw (.empty "mqtt_client_id")
  if settings.tty = "" then throw (.empty "tty")
  let _ ← brokerAddress settings.broker
  return { settings with token := normalToken settings.token }

/-- Whether a client that presents this token is local: both tokens are there,
are not empty and are the same. -/
def trusts (settings : Settings) (presented : Option String) : Bool :=
  match settings.token, presented with
  | some expected, some given => expected ≠ "" && expected = given
  | _, _ => false

/-- The origin of a client that presents this token. -/
def originOf (settings : Settings) (presented : Option String) : Origin :=
  if settings.trusts presented then .local else .remote

/-- The settings as they are shown at start; the token itself is not. -/
def describe (settings : Settings) : String :=
  "Settings\n    Port: " ++ toString settings.port
    ++ ",\n    MQTT broker: " ++ settings.broker ++ " (client id " ++ settings.clientId
    ++ "),\n    Serial: " ++ settings.tty ++ " @ " ++ toString settings.baud
    ++ " baud, target id " ++ toString settings.target.toNat
    ++ ",\n    Min command interval: " ++ Span.text settings.interval
    ++ ",\n    Lock timeout: " ++ Span.text settings.lockTimeout
    ++ ",\n    Auto-off timeout: " ++ Span.text settings.autoOff
    ++ ",\n    Local token: " ++ (if settings.token.isSome then "set" else "unset")

end Settings
end Ventilation

namespace Ventilation

/-!
# Configuration keys

Every setting has a key with a value of one kind.  The name of a key is a list
of words; the command line, the environment and the configuration file each
join the words in their own way.
-/

inductive Kind
  /-- A whole number of so many bits. -/
  | natural (bits : Nat)
  | text
  | path
  deriving DecidableEq, Repr

namespace Kind

@[reducible] def Value : Kind → Type
  | natural bits => Fin (Nat.pow 2 bits)
  | text => String
  | path => String

instance : (kind : Kind) → DecidableEq kind.Value
  | natural bits => inferInstanceAs (DecidableEq (Fin (Nat.pow 2 bits)))
  | text => inferInstanceAs (DecidableEq String)
  | path => inferInstanceAs (DecidableEq String)

end Kind

inductive Key
  | port
  | configPath
  | logDir
  | logLevel
  | debug
  | mqttBroker
  | mqttClientId
  | mqttReconnectBackoffSecs
  | mqttTopicLaser
  | mqttTopicPresence
  | mqttTopicVentilation
  | localToken
  | tty
  | baud
  | targetId
  | minIntervalMs
  | lockTimeoutSecs
  | autoOffTimeoutSecs
  | staticDir
  deriving DecidableEq, Repr

namespace Key

/-- Every key, in the order in which they are looked at. -/
def all : List Key :=
  [port, configPath, logDir, logLevel, debug, mqttBroker, mqttClientId, mqttReconnectBackoffSecs,
    mqttTopicLaser, mqttTopicPresence, mqttTopicVentilation, localToken, tty, baud, targetId,
    minIntervalMs, lockTimeoutSecs, autoOffTimeoutSecs, staticDir]

theorem mem_all (key : Key) : key ∈ all := by cases key <;> decide

def words : Key → List String
  | port => ["port"]
  | configPath => ["config", "path"]
  | logDir => ["log", "dir"]
  | logLevel => ["log", "level"]
  | debug => ["debug"]
  | mqttBroker => ["mqtt", "broker"]
  | mqttClientId => ["mqtt", "client", "id"]
  | mqttReconnectBackoffSecs => ["mqtt", "reconnect", "backoff", "secs"]
  | mqttTopicLaser => ["mqtt", "topic", "laser"]
  | mqttTopicPresence => ["mqtt", "topic", "presence"]
  | mqttTopicVentilation => ["mqtt", "topic", "ventilation"]
  | localToken => ["local", "token"]
  | tty => ["tty"]
  | baud => ["baud"]
  | targetId => ["target", "id"]
  | minIntervalMs => ["min", "interval", "ms"]
  | lockTimeoutSecs => ["lock", "timeout", "secs"]
  | autoOffTimeoutSecs => ["auto", "off", "timeout", "secs"]
  | staticDir => ["static", "dir"]

@[reducible] def kind : Key → Kind
  | port => .natural 16
  | configPath => .path
  | logDir => .path
  | logLevel => .text
  | debug => .text
  | mqttBroker => .text
  | mqttClientId => .text
  | mqttReconnectBackoffSecs => .natural 64
  | mqttTopicLaser => .text
  | mqttTopicPresence => .text
  | mqttTopicVentilation => .text
  | localToken => .text
  | tty => .path
  | baud => .natural 32
  | targetId => .natural 8
  | minIntervalMs => .natural 64
  | lockTimeoutSecs => .natural 64
  | autoOffTimeoutSecs => .natural 64
  | staticDir => .path

@[reducible] def Value (key : Key) : Type := key.kind.Value

/-- The name on the command line, without dashes in front. -/
def flag (key : Key) : String := String.intercalate "-" key.words

/-- The name in the environment. -/
def envName (key : Key) : String :=
  "VENT_" ++ String.intercalate "_" (key.words.map String.toUpper)

/-- The name in the configuration file. -/
def field (key : Key) : String :=
  match key.words with
  | [] => ""
  | first :: rest => first ++ String.join (rest.map String.capitalize)

def ofFlag? (name : String) : Option Key := all.find? fun key => key.flag = name

def ofField? (name : String) : Option Key := all.find? fun key => key.field = name

end Key
end Ventilation

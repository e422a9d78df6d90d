import Ventilation.Config.Key
import Ventilation.Json.Printer
import Ventilation.Json.Record
import Ventilation.Settings

namespace Ventilation

/-!
# Configurations

A configuration gives values to some of the keys.  Layers are put on top of
each other key by key, and what no layer gives has a standard value.
-/

open Json (Document Layout)

/-- Values for some of the keys. -/
structure Config where
  get : (key : Key) → Option key.Value

namespace Config

def empty : Config := ⟨fun _ => none⟩

def set (config : Config) (key : Key) (value : key.Value) : Config :=
  ⟨fun other => if same : key = other then some (same ▸ value) else config.get other⟩

/-- Put a layer on top of another. -/
def above (upper lower : Config) : Config := ⟨fun key => (upper.get key).or (lower.get key)⟩

/-- The lowest layer. -/
def standard : Config where
  get
    | .port => some ⟨8080, by decide⟩
    | .logDir => some "./logs"
    | .logLevel => some "info"
    | .mqttBroker => some Settings.standard.broker
    | .mqttClientId => some Settings.standard.clientId
    | .mqttReconnectBackoffSecs => some ⟨300, by decide⟩
    | .tty => some Settings.standard.tty
    | .baud => some ⟨9600, by decide⟩
    | .targetId => some ⟨1, by decide⟩
    | .minIntervalMs => some ⟨1500, by decide⟩
    | .lockTimeoutSecs => some ⟨1800, by decide⟩
    | .autoOffTimeoutSecs => some ⟨120, by decide⟩
    | _ => none

/-! ## Configuration files -/

def readValue? : (kind : Kind) → Document → Option kind.Value
  | .natural bits, document => do
    let value ← document.natural? (Nat.pow 2 bits)
    if fits : value < Nat.pow 2 bits then some ⟨value, fits⟩ else none
  | .text, document => document.string?
  | .path, document => document.string?

/-- The fields of a configuration file; an array needs all of them. -/
def layout : Layout := ⟨"Config", Key.all.map Key.field, Key.all.length⟩

/-- Read one field; null is the same as no value. -/
def put (config : Config) (name : String) (document : Document) : Option Config :=
  match Key.ofField? name with
  | none => some config
  | some key => do
    let found ← document.optional? (readValue? key.kind)
    match found with
    | some value => return config.set key value
    | none => return config

def ofDocument? (document : Document) : Option Config := layout.read? put empty document

/-- Read a configuration file, which has to be text. -/
def ofBytes? (bytes : List UInt8) : Option Config := do
  let text ← Text.Utf8.decode? bytes
  let document ← Document.ofChars? text
  ofDocument? document

def valueDocument : (kind : Kind) → kind.Value → Document
  | .natural _, value => .numeral (.ofNat value.val)
  | .text, value => .ofText value
  | .path, value => .ofText value

def document (config : Config) : Document :=
  .object (Key.all.map fun key =>
    Document.field key.field (match config.get key with
      | some value => valueDocument key.kind value
      | none => .null))

/-! ## Layers -/

def standardFile : String := "server_ventilation.conf"

/-- The file that the command line asks for. -/
def file (line : Config) : String := (line.get .configPath).getD standardFile

/-- The layers: standard values, the file as a whole or not at all, and the
command line.  `contents` gives the bytes of a file that can be read. -/
def load (line : Config) (contents : String → Option (List UInt8)) : Config :=
  let fromFile := ((contents line.file).bind ofBytes?).getD empty
  line.above (fromFile.above standard)

/-- The settings that a configuration stands for, before they are checked. -/
def unchecked (config : Config) : Settings :=
  let base := Settings.standard
  { port := (config.get .port).elim base.port Fin.val
    broker := (config.get .mqttBroker).getD base.broker
    clientId := (config.get .mqttClientId).getD base.clientId
    backoff := (config.get .mqttReconnectBackoffSecs).elim base.backoff (Span.ofSeconds ·.val)
    topics :=
      { laser := (config.get .mqttTopicLaser).getD base.topics.laser
        presence := (config.get .mqttTopicPresence).getD base.topics.presence
        ventilation := (config.get .mqttTopicVentilation).getD base.topics.ventilation }
    token := config.get .localToken
    tty := (config.get .tty).getD base.tty
    baud := (config.get .baud).elim base.baud Fin.val
    target := (config.get .targetId).elim base.target (UInt8.ofNat ·.val)
    interval := (config.get .minIntervalMs).elim base.interval (Span.ofMillis ·.val)
    lockTimeout := (config.get .lockTimeoutSecs).elim base.lockTimeout (Span.ofSeconds ·.val)
    autoOff := (config.get .autoOffTimeoutSecs).elim base.autoOff (Span.ofSeconds ·.val)
    staticDir := config.get .staticDir }

def settings (config : Config) : Except SettingsError Settings := config.unchecked.validate

end Config
end Ventilation

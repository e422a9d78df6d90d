import Ventilation.Config

namespace Ventilation
namespace CommandLine

/-!
# The command line

A flag and its value are one argument, joined by an equals sign, or two.  A
value that stands alone is only looked at when the next known flag or the end
is reached; a joined one is looked at once.  Environment variables stand in for
flags that are not given.
-/

/-- Why there is no configuration. -/
inductive UsageError
  | helpWanted
  | versionWanted
  | unknownArgument
  /-- A flag without its value, or an empty path. -/
  | invalidValue
  /-- A flag that takes no value has one. -/
  | tooManyValues
  | argumentConflict
  /-- A value that is no number of its kind. -/
  | valueValidation
  deriving DecidableEq, Repr

/-- Read a value.  Numbers of less than 64 bits are read as signed numbers, so
minus zero is zero. -/
def readValue : (kind : Kind) → String → Except UsageError kind.Value
  | .natural bits, text =>
    let found := match text.toList with
      | '-' :: digits => if bits < 64 ∧ Text.Natural.digits? digits = some 0 then some 0 else none
      | chars => Text.Natural.read? (Nat.pow 2 bits) chars
    match found with
    | some value => if fits : value < Nat.pow 2 bits then .ok ⟨value, fits⟩ else .error .valueValidation
    | none => .error .valueValidation
  | .text, text => .ok text
  | .path, text => if text = "" then .error .invalidValue else .ok text

/-- A flag that has been met and is not settled. -/
inductive Pending
  | nothing
  | flag (key : Key)
  | value (key : Key) (text : String)
  deriving DecidableEq, Repr

def give (config : Config) (key : Key) (text : String) : Except UsageError Config :=
  if (config.get key).isSome then .error .argumentConflict
  else (readValue key.kind text).map (config.set key)

def settle (config : Config) : Pending → Except UsageError Config
  | .nothing => .ok config
  | .flag _ => .error .invalidValue
  | .value key text => give config key text

inductive Argument
  /-- Two dashes alone: no flags follow. -/
  | separator
  | long (name : String) (value : Option String)
  | short (first : Char)
  | other (text : String)
  deriving DecidableEq, Repr

/-- The text before and after the first equals sign. -/
def splitEquals (text : List Char) : String × Option String :=
  let name := text.takeWhile (· ≠ '=')
  match text.drop name.length with
  | [] => (String.ofList name, none)
  | _ :: value => (String.ofList name, some (String.ofList value))

def Argument.of (text : String) : Argument :=
  match text.toList with
  | ['-', '-'] => separator
  | '-' :: '-' :: rest =>
    let (name, value) := splitEquals rest
    long name value
  | '-' :: first :: _ => short first
  | _ => other text

/-- Take an argument after what is pending, where flags are still possible. -/
def take (config : Config) (pending : Pending) :
    Argument → Except UsageError (Config × Pending)
  | .separator => .ok (config, pending)
  | .long name value =>
    match Key.ofFlag? name, value with
    | some key, some text => do
      let config ← settle config pending
      let config ← give config key text
      return (config, .nothing)
    | some key, none => do
      let config ← settle config pending
      return (config, .flag key)
    | none, some _ =>
      .error (if name = "help" ∨ name = "version" then .tooManyValues else .unknownArgument)
    | none, none =>
      if name = "help" then settle config pending >>= fun _ => .error .helpWanted
      else if name = "version" then settle config pending >>= fun _ => .error .versionWanted
      else .error .unknownArgument
  | .short first =>
    if first = 'h' then settle config pending >>= fun _ => .error .helpWanted
    else if first = 'V' then settle config pending >>= fun _ => .error .versionWanted
    else .error .unknownArgument
  | .other text =>
    match pending with
    | .flag key => .ok (config, .value key text)
    | _ => .error .unknownArgument

def takeAll (config : Config) (pending : Pending) : List String → Except UsageError Config
  | [] => settle config pending
  | text :: rest =>
    match Argument.of text with
    | .separator => if rest = [] then settle config pending else .error .unknownArgument
    | argument => do
      let (config, pending) ← take config pending argument
      takeAll config pending rest

/-- Fill one key from the environment unless it has a value. -/
def fill (lookup : String → Option String) (config : Config) (key : Key) :
    Except UsageError Config :=
  match config.get key, lookup key.envName with
  | none, some text => (readValue key.kind text).map (config.set key)
  | _, _ => .ok config

def read (arguments : List String) (lookup : String → Option String) :
    Except UsageError Config := do
  let config ← takeAll .empty .nothing arguments
  Key.all.foldlM (fill lookup) config

end CommandLine
end Ventilation

namespace Ventilation

/-!
# Messages for the log

What the parts of the server say about what they do.
-/

/-- How much a message matters. -/
inductive LogLevel
  | error
  | warn
  | info
  | debug
  | trace
  deriving DecidableEq, Repr

namespace LogLevel

def name : LogLevel → String
  | error => "ERROR"
  | warn => "WARN"
  | info => "INFO"
  | debug => "DEBUG"
  | trace => "TRACE"

end LogLevel

/-- A message with its level. -/
structure LogLine where
  level : LogLevel
  text : String
  deriving DecidableEq, Repr

namespace LogLine

def line (message : LogLine) : String := message.level.name ++ " " ++ message.text

end LogLine

end Ventilation

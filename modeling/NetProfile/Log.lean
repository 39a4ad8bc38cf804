/-!
# Log records

What the library reports beside its answers. A function that can meet something
worth reporting returns the records with its result, in the order in which it
met them.
-/

namespace NetProfile

/-- The importance of a log record, least important last. -/
inductive LogLevel where
  | error
  | warn
  | info
  | debug
  | trace
  deriving DecidableEq, Repr

namespace LogLevel

/-- The name of the level in capitals. -/
def name : LogLevel → String
  | error => "ERROR"
  | warn => "WARN"
  | info => "INFO"
  | debug => "DEBUG"
  | trace => "TRACE"

/-- The number of levels that are more important. -/
def rank : LogLevel → Nat
  | error => 0
  | warn => 1
  | info => 2
  | debug => 3
  | trace => 4

end LogLevel

/-- One reported event. -/
structure LogRecord where
  /-- How important it is. -/
  level : LogLevel
  /-- What happened. -/
  message : String
  deriving DecidableEq, Repr

namespace LogRecord

/-- A record at level `warn`. -/
def warning (message : String) : LogRecord := ⟨.warn, message⟩

/-- A record at level `debug`. -/
def debugging (message : String) : LogRecord := ⟨.debug, message⟩

end LogRecord

end NetProfile

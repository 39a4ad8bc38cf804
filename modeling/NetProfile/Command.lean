/-!
# Commands

What a command line asks for.

## Main definitions

- `Task` — one thing to do
- `Target` — where the document goes
- `Request` — a task and how much to report about it
- `UsageError` — a command line that asks for nothing
-/

namespace NetProfile

/-- Where a document goes. -/
inductive Target where
  | standardOutput
  /-- To its file below a root directory. -/
  | below (root : String)
  deriving DecidableEq, Repr

/-- One thing to do. -/
inductive Task where
  /-- Import the profile at a path, and keep the id if one is given. -/
  | importProfile (path : String) (id? : Option String) (target : Target)
  /-- Write one definition of the document at a path on its own. -/
  | serialize (path id : String) (target : Target)
  /-- Name the definition that a generated profile comes from. -/
  | recoverId (path : String) (ssid : Option String)
  deriving DecidableEq, Repr

/-- What a command line asks for. -/
structure Request where
  task : Task
  /-- How often more to report was asked for. -/
  verbosity : Nat := 0
  deriving DecidableEq, Repr

/-- Why a command line asks for nothing. -/
inductive UsageError where
  | noCommand
  | unknownCommand (name : String)
  | unknownOption (name : String)
  /-- A switch with a value. -/
  | unexpectedValue (name : String)
  | missingValue (name : String)
  | repeatedOption (name : String)
  | missingOption (name : String)
  | missingOperand (name : String)
  | unexpectedOperand (text : String)
  deriving DecidableEq, Repr

namespace UsageError

/-- The error in words. -/
def message : UsageError → String
  | noCommand => "a command is required"
  | unknownCommand name => "unknown command '" ++ name ++ "'"
  | unknownOption name => "unknown option '" ++ name ++ "'"
  | unexpectedValue name => "option '" ++ name ++ "' takes no value"
  | missingValue name => "option '" ++ name ++ "' needs a value"
  | repeatedOption name => "option '" ++ name ++ "' is given more than once"
  | missingOption name => "option '" ++ name ++ "' is required"
  | missingOperand name => name ++ " is required"
  | unexpectedOperand text => "unexpected argument '" ++ text ++ "'"

end UsageError

end NetProfile

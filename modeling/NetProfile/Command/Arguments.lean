import NetProfile.Command

/-!
# Command lines

Reads the arguments of a command line.

## Main definitions

- `Word` — an argument taken on its own
- `OptionTable`, `Arguments.collect` — options and operands of a command
- `Request.ofArguments`

## Design notes

An option that takes a value takes it from behind an equals sign, or else from
the next argument, which must not look like an option itself. The switch that
asks for more reports may stand anywhere before the separator, also in front of
the command.
-/

namespace NetProfile

/-- An argument taken on its own. -/
inductive Word where
  /-- All that follows are operands. -/
  | separator
  /-- An option with a name, and the value behind its equals sign. -/
  | long (name : String) (value : Option String)
  /-- Options of one letter each. -/
  | short (letters : List Char)
  /-- A command, an operand or a value. -/
  | plain
  deriving DecidableEq, Repr

namespace Word

/-- An option with a name. -/
def ofLong (s : List Char) : Word :=
  match s.dropWhile (· != '=') with
  | [] => .long (String.ofList s) none
  | _ :: value => .long (String.ofList (s.takeWhile (· != '='))) (some (String.ofList value))

/-- What an argument is on its own. A single dash is an operand. -/
def ofArgument (arg : String) : Word :=
  match arg.toList with
  | ['-', '-'] => .separator
  | '-' :: '-' :: s => ofLong s
  | ['-'] => .plain
  | '-' :: letters => .short letters
  | _ => .plain

end Word

/-- The options that a command knows. -/
structure OptionTable where
  /-- Options without a value. -/
  switches : List String
  /-- Options with a value. -/
  valued : List String

/-- The arguments of a command. -/
structure Arguments where
  verbosity : Nat := 0
  switches : List String := []
  values : List (String × String) := []
  operands : List String := []
  deriving Repr

namespace Arguments

/-- The switch that asks for more reports. -/
def verboseName : String := "verbose"

/-- The same switch as a letter. -/
def verboseLetter : Char := 'v'

/-- Notes a switch, which may be given only once. -/
def addSwitch (a : Arguments) (name : String) : Except UsageError Arguments :=
  if a.switches.contains name then .error (.repeatedOption name)
  else .ok { a with switches := a.switches ++ [name] }

/-- Notes a value; an option may be given only once. -/
def addValue (a : Arguments) (name value : String) : Except UsageError Arguments :=
  if (a.values.lookup name).isSome then .error (.repeatedOption name)
  else .ok { a with values := a.values ++ [(name, value)] }

/-- Notes an operand. -/
def addOperand (a : Arguments) (text : String) : Arguments :=
  { a with operands := a.operands ++ [text] }

/-- Reads letters, all of which have to ask for more reports. -/
def addLetters (a : Arguments) (letters : List Char) : Except UsageError Arguments :=
  match letters.find? (· != verboseLetter) with
  | some c => .error (.unknownOption (String.ofList [c]))
  | none => .ok { a with verbosity := a.verbosity + letters.length }

/-- Reads the switch that asks for more reports. -/
def addVerbose (a : Arguments) (value : Option String) : Except UsageError Arguments :=
  if value.isSome then .error (.unexpectedValue verboseName)
  else .ok { a with verbosity := a.verbosity + 1 }

/-- Takes an option with a name. The answer is the option's name again if its
value has to follow. -/
def addLong (table : OptionTable) (a : Arguments) (name : String) (value : Option String) :
    Except UsageError (Arguments × Option String) := do
  if name = verboseName then return (← a.addVerbose value, none)
  else if table.switches.contains name then
    if value.isSome then throw (.unexpectedValue name) else return (← a.addSwitch name, none)
  else if table.valued.contains name then
    match value with
    | some text => return (← a.addValue name text, none)
    | none => return (a, some name)
  else throw (.unknownOption name)

/-- Arguments that are being read. -/
structure Scan where
  arguments : Arguments
  /-- The option whose value has to follow. -/
  pending : Option String := none
  /-- Whether the separator has been met. -/
  closed : Bool := false

/-- Takes one argument of a command with the options in `table`. -/
def step (table : OptionTable) (s : Scan) (arg : String) : Except UsageError Scan := do
  if s.closed then return { s with arguments := s.arguments.addOperand arg }
  else
    match s.pending, Word.ofArgument arg with
    | some name, .plain => return { arguments := ← s.arguments.addValue name arg }
    | some name, _ => throw (.missingValue name)
    | none, .separator => return { s with closed := true }
    | none, .short letters => return { s with arguments := ← s.arguments.addLetters letters }
    | none, .plain => return { s with arguments := s.arguments.addOperand arg }
    | none, .long name value => do
      let (arguments, pending) ← addLong table s.arguments name value
      return { arguments, pending }

/-- Reads the arguments of a command with the options in `table`. -/
def collect (table : OptionTable) (a : Arguments) (args : List String) :
    Except UsageError Arguments := do
  let s ← args.foldlM (step table) { arguments := a }
  match s.pending with
  | some name => throw (.missingValue name)
  | none => return s.arguments

/-- The single operand, which `name` describes. -/
def operand (a : Arguments) (name : String) : Except UsageError String :=
  match a.operands with
  | [] => .error (.missingOperand name)
  | [text] => .ok text
  | _ :: text :: _ => .error (.unexpectedOperand text)

/-- The single operand as a path, which must not be empty. -/
def pathOperand (a : Arguments) (name : String) : Except UsageError String := do
  let path ← a.operand name
  if path = "" then .error (.missingOperand name) else return path

/-- The value of an option. -/
def value? (a : Arguments) (name : String) : Option String := a.values.lookup name

/-- The name of the option for the root directory. -/
def rootName : String := "root-dir"

/-- The switch that sends the document to the standard output. -/
def stdoutName : String := "stdout"

/-- Where the document goes: below the top directory unless told otherwise. -/
def target (a : Arguments) : Except UsageError Target :=
  let root := (a.value? rootName).getD "/"
  if root = "" then .error (.missingValue rootName)
  else if a.switches.contains stdoutName then .ok .standardOutput
  else .ok (.below root)

end Arguments

namespace Task

/-- Reads the arguments of an import. -/
def ofImport (a : Arguments) : Except UsageError Task := do
  let path ← a.pathOperand "PATH"
  return .importProfile path (a.value? "netdef-id") (← a.target)

/-- Reads the arguments of a serialization. -/
def ofSerialize (a : Arguments) : Except UsageError Task := do
  let path ← a.pathOperand "YAML"
  match a.value? "id" with
  | some id => return .serialize path id (← a.target)
  | none => .error (.missingOption "id")

/-- Reads the arguments of a search for an id. -/
def ofRecoverId (a : Arguments) : Except UsageError Task := do
  return .recoverId (← a.operand "FILENAME") (a.value? "ssid")

end Task

namespace Request

/-- Reads the arguments of a command, behind `verbosity` requests for more reports. -/
def ofCommand (table : OptionTable) (read : Arguments → Except UsageError Task)
    (verbosity : Nat) (args : List String) : Except UsageError Request := do
  let a ← Arguments.collect table { verbosity } args
  return { task := ← read a, verbosity := a.verbosity }

/-- Passes over requests for more reports up to a command, and goes on behind it
with what the command asks for. -/
def dispatch (go : String → Nat → List String → Except UsageError Request) (verbosity : Nat) :
    List String → Except UsageError Request
  | [] => .error .noCommand
  | arg :: rest =>
    match Word.ofArgument arg with
    | .plain => go arg verbosity rest
    | .short letters => do
      let a ← Arguments.addLetters { verbosity } letters
      dispatch go a.verbosity rest
    | .long name value =>
      if name = Arguments.verboseName then do
        let a ← Arguments.addVerbose { verbosity } value
        dispatch go a.verbosity rest
      else .error (.unknownOption name)
    | .separator => .error .noCommand

/-- The commands for importing from other formats. -/
def ofImportCommand (name : String) (verbosity : Nat) (args : List String) :
    Except UsageError Request :=
  if name = "keyfile" then
    ofCommand ⟨[Arguments.stdoutName], ["netdef-id", Arguments.rootName]⟩ Task.ofImport verbosity args
  else .error (.unknownCommand name)

/-- The commands. -/
def ofTopCommand (name : String) (verbosity : Nat) (args : List String) :
    Except UsageError Request :=
  if name = "import" then dispatch ofImportCommand verbosity args
  else if name = "serialize" then
    ofCommand ⟨[Arguments.stdoutName], ["id", Arguments.rootName]⟩ Task.ofSerialize verbosity args
  else if name = "nm-id" then ofCommand ⟨[], ["ssid"]⟩ Task.ofRecoverId verbosity args
  else .error (.unknownCommand name)

/-- Reads the arguments of a command line. -/
def ofArguments (args : List String) : Except UsageError Request := dispatch ofTopCommand 0 args

end Request

end NetProfile

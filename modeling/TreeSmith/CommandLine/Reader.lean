import TreeSmith.CommandLine.Arguments

/-!
# TreeSmith.CommandLine.Reader

**Arguments read from left to right.**

Design points:

* What takes a value is settled late: its value waits until the next argument that sets something,
  or the end. An argument that nobody knows, and a flag that is given a value, is refused before
  that; so it is refused even if the value that still waits is wrong.
* An option without an attached value takes the next argument that does not start with a dash; a
  dash alone counts as a value. An option that is settled without a value is refused.
* Behind two dashes every argument is positional, and there is one positional argument.
-/

namespace TreeSmith

/-- What a value is for. -/
inductive Slot where
  | grammar
  | option (option : ValueOption)
  deriving DecidableEq, Repr

/-- How far the arguments have been read. -/
structure Reading where
  /-- What has been settled so far. -/
  arguments : Arguments
  /-- The options that have been settled. -/
  options : List ValueOption
  /-- The flags that have been given, those aside that may be given again. -/
  flags : List Flag
  /-- What waits to be settled, with its value if it has got one. -/
  pending : Option (Slot × Option String)
  /-- Has the positional argument been given? -/
  positional : Bool
  /-- Have two dashes been passed? -/
  trailing : Bool
  deriving Repr

namespace Reading

/-- Nothing has been read. -/
def start : Reading :=
  ⟨{}, [], [], none, false, false⟩

/-- Sets an option, unless it has been set before. -/
def setOption (reading : Reading) (option : ValueOption) (value : String) :
    Except UsageError Reading := do
  if reading.options.contains option then throw .argumentConflict
  let arguments ← option.set value reading.arguments
  return { reading with arguments, options := option :: reading.options }

/-- Settles what waits. -/
def settle (reading : Reading) : Except UsageError Reading := do
  let settled := { reading with pending := none }
  match reading.pending with
  | none => return settled
  | some (_, none) => throw .invalidValue
  | some (.grammar, some value) =>
    let path ← parsePath value
    return { settled with arguments := { settled.arguments with grammar := path } }
  | some (.option option, some value) => settled.setOption option value

/-- Reads a flag. Only the one for more log may be given again. -/
def readFlag (reading : Reading) (flag : Flag) : Except UsageError Reading := do
  let settled ← reading.settle
  if settled.flags.contains flag then throw .argumentConflict
  let arguments ← flag.set settled.arguments
  let flags := if flag = .verbose then settled.flags else flag :: settled.flags
  return { settled with arguments, flags }

/-- Reads the letters behind a single dash. -/
def readLetters (reading : Reading) : List Char → Except UsageError Reading
  | [] => .ok reading
  | letter :: letters =>
    match Flag.ofLetter? letter with
    | none => .error .unknownArgument
    | some flag => do (← reading.readFlag flag).readLetters letters

/-- Reads an option with the value attached to it, if there is one. -/
def readOption (reading : Reading) (option : ValueOption) (value : Option String) :
    Except UsageError Reading := do
  let settled ← reading.settle
  match value with
  | some value => settled.setOption option value
  | none => return { settled with pending := some (.option option, none) }

/-- Reads what follows two dashes: a name, and a value behind the first equals sign. -/
def readLong (reading : Reading) (long : List Char) : Except UsageError Reading :=
  let name := String.ofList (long.takeWhile (· != '='))
  let value :=
    match long.dropWhile (· != '=') with
    | [] => none
    | _ :: value => some (String.ofList value)
  match ValueOption.ofName? name with
  | some option => reading.readOption option value
  | none =>
    match Flag.ofName? name with
    | none => .error .unknownArgument
    | some flag => if value.isSome then .error .tooManyValues else reading.readFlag flag

/-- Reads an argument by its place. -/
def readPositional (reading : Reading) (argument : String) : Except UsageError Reading := do
  if reading.positional then throw .unknownArgument
  let settled ← reading.settle
  return { settled with pending := some (.grammar, some argument), positional := true }

/-- Reads an argument that is no option: the value that an option waits for, or a positional
one. -/
def readValue (reading : Reading) (argument : String) : Except UsageError Reading :=
  match reading.pending with
  | some (slot, none) => .ok { reading with pending := some (slot, some argument) }
  | _ => reading.readPositional argument

/-- Reads one argument. -/
def step (reading : Reading) (argument : String) : Except UsageError Reading :=
  if reading.trailing then reading.readPositional argument
  else
    match argument.toList with
    | ['-', '-'] => .ok { reading with trailing := true }
    | '-' :: '-' :: long => reading.readLong long
    | '-' :: letter :: letters => reading.readLetters (letter :: letters)
    | _ => reading.readValue argument

end Reading

/-- Reads all arguments. There has to be a grammar. -/
def readArguments (arguments : List String) : Except UsageError Arguments := do
  let reading ← arguments.foldlM Reading.step Reading.start
  let settled ← reading.settle
  if !settled.positional then throw .missingRequiredArgument
  return settled.arguments

end TreeSmith

import TreeSmith.CommandLine.Reader
import TreeSmith.Grammar.Reader
import TreeSmith.Output.Update
import TreeSmith.Text.LineColumn

/-!
# TreeSmith.Program

**A run of the program**, as a function of its arguments and of the disk.

A run reads its arguments, then the grammar, generates all files, and brings them up to date, or
only checks that they are. What it says is a list of messages in order: log events, as far as
they were asked for, and lines for the user. It ends with status 0 if all went well, with status
1 if a step failed, and with status 2 if its arguments were wrong.

Design points:

* All that can be decided without the disk is decided in `accept` (from the arguments), in
  `prepare` (from the text of the grammar) and in `conclude` (from the number of files that were
  out of date). What is left to the disk is reading one file and bringing others up to date.
* The order of these steps is said once, in terms of what a `Host` offers. A disk with a list of
  messages is one (`diskHost`); the real file system with a terminal is another.
* Events that are too detailed for the verbosity are left out at the end. They never influence
  the run.
-/

namespace TreeSmith

/-- A line that the program prints besides its result. -/
inductive Message where
  | event (event : Event)
  | text (line : String)
  deriving DecidableEq, Repr

/-- A message as it is printed. -/
def Message.render : Message → String
  | event e => "[" ++ e.level.render ++ " treegen] " ++ e.message ++ "\n"
  | text line => line ++ "\n"

/-- Is a message shown at this verbosity? Lines for the user always are. -/
def Message.isShown (verbose : Nat) : Message → Bool
  | event e => e.level.rank ≤ verbose
  | text _ => true

/-- The name and the version of the program. -/
def versionText : String := "treegen 0.1.0\n"

/-- How the program is called. -/
def usageText : String :=
  let options := ValueOption.all.map fun option => "      --" ++ option.longName ++ " <VALUE>\n"
  let flags := Flag.all.map fun flag => "      --" ++ flag.longName ++ "\n"
  "Usage: treegen [OPTIONS] <GRAMMAR>\n\nOptions:\n" ++ String.join (options ++ flags)

/-- What is wrong with the arguments. -/
def UsageError.message : UsageError → String
  | unknownArgument => "unexpected argument found"
  | missingRequiredArgument => "the grammar was not provided"
  | argumentConflict => "an argument cannot be used multiple times"
  | tooManyValues => "a value was given to a flag"
  | invalidValue => "a value is required but none was supplied"
  | valueValidation => "invalid value for a number"
  | displayHelp => usageText
  | displayVersion => versionText

/-! ## Steps that need no disk -/

/-- A diagnostic as a line for the user, with its line and column in the grammar. -/
def diagnosticLine (path source : String) (d : Diagnostic) : String :=
  path ++
    (match d.span with
    | some span =>
      let place := Text.lineColumn source.toList span.start
      ":" ++ toString place.line ++ ":" ++ toString place.column
    | none => "") ++
    ": " ++ d.severity.render ++ ": " ++ d.message

/-- What a step leads to: messages, and a result or the reason of failure. -/
structure Stage (α : Type) where
  messages : List Message
  result : Except String α

/-- Generates all files from the text of the grammar. -/
def prepare (arguments : Arguments) (source : String) : Stage Output :=
  let loaded := Grammar.load source
  match loaded.value with
  | .error e => ⟨loaded.events.map .event, .error e.message⟩
  | .ok grammar =>
    let generated := generate arguments.config grammar
    let diagnostics := generated.value.diagnostics
    let messages :=
      (loaded.events ++ generated.events).map Message.event ++
        diagnostics.map fun d => .text (diagnosticLine arguments.grammar source d)
    match generated.value.outcome with
    | .error e => ⟨messages, .error e.message⟩
    | .ok output =>
      if hasErrors diagnostics then
        ⟨messages, .error (toString (errorCount diagnostics) ++ " errors reported")⟩
      else ⟨messages, .ok output⟩

/-- Judges a run in which so many files were out of date. -/
def conclude (arguments : Arguments) (stale : Nat) : Except String Unit :=
  if arguments.check && 0 < stale then
    .error (toString stale ++ " generated files are out of date")
  else .ok ()

/-- A run that ends with its arguments. -/
structure Refusal where
  status : Nat
  stdout : String
  messages : List Message

/-- The arguments of a run, if there is more to do than to answer them. -/
def accept (arguments : List String) : Except Refusal Arguments :=
  match readArguments arguments with
  | .error .displayHelp => .error ⟨0, usageText, []⟩
  | .error .displayVersion => .error ⟨0, versionText, []⟩
  | .error e => .error ⟨2, "", [.text ("error: " ++ e.message)]⟩
  | .ok accepted => .ok accepted

/-- The status that a result leads to: 1 if a step failed. -/
def statusOf : Except String Unit → Nat
  | .ok () => 0
  | .error _ => 1

/-- What is said about a result at the end: the reason if a step failed. -/
def lastWords : Except String Unit → List Message
  | .ok () => []
  | .error reason => [.text ("error: " ++ reason)]

/-! ## Runs -/

/-- A place to run the program: what a run needs from it. -/
structure Host (m : Type → Type) where
  /-- The text of a file, or the reason why it cannot be read. -/
  readText : Path → m (Except String String)
  say : List Message → m Unit
  /-- Brings the files of an output up to date, and tells how many were not, or why it failed. -/
  writeOutput : Arguments → Output → m (Except String Nat)

namespace Host

variable {m : Type → Type} [Monad m] (host : Host m) (arguments : Arguments)

/-- A run that has read its grammar. -/
def performOn (source : String) : m (Except String Unit) := do
  let stage := prepare arguments source
  host.say stage.messages
  match stage.result with
  | .error reason => return .error reason
  | .ok output =>
    match ← host.writeOutput arguments output with
    | .error reason => return .error reason
    | .ok stale => return conclude arguments stale

/-- A run with accepted arguments, as far as it gets. -/
def perform : m (Except String Unit) := do
  match ← host.readText ⟨arguments.grammar⟩ with
  | .error reason => return .error (arguments.grammar ++ ": " ++ reason)
  | .ok source => host.performOn arguments source

end Host

/-! ### Runs on a disk -/

/-- A disk, and what was said about it so far. -/
structure Told where
  disk : Disk
  messages : List Message

/-- A disk to run the program on. -/
def diskHost : Host (StateM Told) where
  readText path := return ((← get).disk.readText path).mapError DiskError.message
  say messages := modify fun told => { told with messages := told.messages ++ messages }
  writeOutput arguments output := do
    let told ← get
    let work := writeOutput output arguments.config arguments.nodesDir arguments.visitorDir
      arguments.check
    let done := work.run.run told.disk
    let (result, disk) := done.value
    set (Told.mk disk (told.messages ++ done.events.map .event))
    return result.mapError DiskError.message

/-- What a run ends with. -/
structure Outcome where
  status : Nat
  stdout : String
  messages : List Message
  disk : Disk

/-- The end of a run that was accepted: with status 1 and the reason if a step failed. -/
def finish (arguments : Arguments) (messages : List Message) (result : Except String Unit)
    (disk : Disk) : Outcome where
  status := statusOf result
  stdout := ""
  messages := messages.filter (Message.isShown arguments.verbose) ++ lastWords result
  disk

/-- A run with accepted arguments. -/
def runAccepted (arguments : Arguments) (disk : Disk) : Outcome :=
  let (result, told) := (diskHost.perform arguments).run ⟨disk, []⟩
  finish arguments told.messages result told.disk

/-- A run of the program. -/
def run (arguments : List String) (disk : Disk) : Outcome :=
  match accept arguments with
  | .error refusal => ⟨refusal.status, refusal.stdout, refusal.messages, disk⟩
  | .ok accepted => runAccepted accepted disk

end TreeSmith

import TreeSmith.Program

/-!
# TreeSmith.Main

**The program on the real file system.** What a run does, and in which order, is said by
`TreeSmith.Program` and `TreeSmith.Output.Update`; this module offers them the files of the system
and its terminal.
-/

namespace TreeSmith.Main

/-- The reason of a failure of the system, as messages show it. -/
def reasonOf : IO.Error → String
  | .noFileOrDirectory .. => DiskError.notFound.message
  | .noSuchThing .. => DiskError.notFound.message
  | .alreadyExists .. => DiskError.alreadyExists.message
  | .inappropriateType .. => DiskError.isADirectory.message
  | .invalidArgument _ 36 _ => DiskError.nameTooLong.message
  | e => toString e

/-- What comes of a step, or the reason why it failed. -/
def attempt {α : Type} (step : IO α) : IO (Except String α) := do
  try return .ok (← step)
  catch e => return .error (reasonOf e)

/-- The text of a file, or the reason why there is none. -/
def readText (path : Path) : IO (Except String String) := do
  match ← attempt (IO.FS.readBinFile path.text) with
  | .error reason => return .error reason
  | .ok bytes =>
    match String.fromUTF8? bytes with
    | some text => return .ok text
    | none => return .error DiskError.invalidText.message

/-- Prints messages as far as they are shown at this verbosity. -/
def say (verbose : Nat) (messages : List Message) : IO Unit := do
  let stderr ← IO.getStderr
  for message in messages.filter (Message.isShown verbose) do
    stderr.putStr message.render

/-- The files of the system. -/
def workspace (verbose : Nat) : Workspace IO where
  readText? path := return (← readText path).toOption
  makeWay path := do
    if let some directory := path.directories.head? then IO.FS.createDirAll directory.text
  writeText path text := IO.FS.writeFile path.text text
  report event := say verbose [.event event]

/-- The system. -/
def host (verbose : Nat) : Host IO where
  readText := readText
  say := say verbose
  writeOutput arguments output := attempt <|
    (workspace verbose).writeOutput output arguments.config arguments.nodesDir
      arguments.visitorDir arguments.check

/-- A run of the program. -/
def run (arguments : List String) : IO UInt32 := do
  match accept arguments with
  | .error refusal =>
    IO.print refusal.stdout
    say 0 refusal.messages
    return refusal.status.toUInt32
  | .ok accepted =>
    let result ← (host accepted.verbose).perform accepted
    say 0 (lastWords result)
    return (statusOf result).toUInt32

end TreeSmith.Main

/-- Runs the program. -/
def main (arguments : List String) : IO UInt32 :=
  TreeSmith.Main.run arguments

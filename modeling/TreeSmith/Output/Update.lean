import TreeSmith.Disk.Basic
import TreeSmith.Event
import TreeSmith.Output.Files

/-!
# TreeSmith.Output.Update

**Bringing files up to date.** A file is left alone if it holds its contents already, up to the
kind of its line ends. Otherwise it is written, or, if this is only a check, reported.

Design points:

* A file that cannot be read, for whatever reason, is out of date. Whether that can be mended
  shows when it is written.
* Files are brought up to date in order. The first failure ends the run; what was done until
  then stays, on the disk and in the events.
* What is done, and in which order, is said once, in terms of what a `Workspace` offers. A disk is
  one (`diskWorkspace`); the real file system is another.
-/

namespace TreeSmith

/-! ## Contents of files -/

/-- A text with its line ends all of one kind. -/
def normalizeNewlines : List Char → List Char
  | [] => []
  | '\r' :: '\n' :: cs => '\n' :: normalizeNewlines cs
  | c :: cs => c :: normalizeNewlines cs

/-- Are two texts the same, up to the kind of their line ends? -/
def sameText (a b : String) : Bool :=
  normalizeNewlines a.toList == normalizeNewlines b.toList

/-- What is to be done about a file. -/
inductive Verdict where
  /-- Nothing: it holds its contents. -/
  | upToDate
  /-- To be reported: this is only a check. -/
  | outOfDate
  /-- To be written. -/
  | updating
  deriving DecidableEq, Repr

namespace Verdict

/-- The verdict about a file, given whether it holds its contents and whether this is a check. -/
def of (holds check : Bool) : Verdict :=
  if holds then upToDate else if check then outOfDate else updating

/-- The event that reports the verdict about the file at `path`. -/
def event (path : String) : Verdict → Event
  | upToDate => .upToDate path
  | outOfDate => .outOfDate path
  | updating => .updating path

/-- Was the file out of date? -/
def isStale (verdict : Verdict) : Bool :=
  verdict != upToDate

@[simp] theorem isStale_of (holds check : Bool) : (of holds check).isStale = !holds := by
  cases holds <;> cases check <;> rfl

theorem of_eq_updating_iff {holds check : Bool} :
    of holds check = updating ↔ holds = false ∧ check = false := by
  cases holds <;> cases check <;> decide

end Verdict

/-! ## Work on files -/

/-- A place to work on files: what can be done there. An operation that changes a file may fail. -/
structure Workspace (m : Type → Type) where
  /-- The text of a file, if it can be read. -/
  readText? : Path → m (Option String)
  /-- Makes the directories that lead to a path. -/
  makeWay : Path → m Unit
  /-- Writes a text to a file in a directory that exists. -/
  writeText : Path → String → m Unit
  report : Event → m Unit

namespace Workspace

variable {m : Type → Type} [Monad m] (workspace : Workspace m)

/-- Does a file hold these contents, up to the kind of line ends? -/
def holds (path contents : String) : m Bool := do
  match ← workspace.readText? ⟨path⟩ with
  | some old => return sameText old contents
  | none => return false

/-- Writes a file, and makes the directories that lead to it. -/
def writeFile (path : Path) (contents : String) : m Unit := do
  workspace.makeWay path
  workspace.writeText path contents

/-- Brings a file up to date, or only checks it. Tells whether it was out of date. -/
def ensureFile (path contents : String) (check : Bool) : m Bool := do
  let verdict := Verdict.of (← workspace.holds path contents) check
  workspace.report (verdict.event path)
  if verdict = .updating then workspace.writeFile ⟨path⟩ contents
  return verdict.isStale

/-- Brings files up to date in order, and counts those that were not. -/
def ensureFiles (check : Bool) : List OutputFile → m Nat
  | [] => return 0
  | file :: files => do
    let wasStale ← workspace.ensureFile file.path file.contents check
    let stale ← ensureFiles check files
    return (if wasStale then 1 else 0) + stale

/-- Brings all files of an output up to date, or only checks them. Tells how many were not. -/
def writeOutput (output : Output) (config : Config) (nodesDir visitorDir : String)
    (check : Bool) : m Nat := do
  let stale ← workspace.ensureFiles check (outputFiles output config nodesDir visitorDir)
  workspace.report (if check then .stale stale else .updated stale)
  return stale

end Workspace

/-! ## Work on a disk -/

/-- Does the disk hold these contents at that path, up to the kind of line ends? -/
def Disk.holds (disk : Disk) (path contents : String) : Bool :=
  match disk.readText ⟨path⟩ with
  | .ok old => sameText old contents
  | .error _ => false

/-- Work on a disk: it may fail, and keeps what was done until then. -/
abbrev DiskWork := ExceptT DiskError (StateT Disk Logged)

namespace DiskWork

/-- Reports an event in the course of the work. -/
def report (event : Event) : DiskWork Unit :=
  ExceptT.lift (StateT.lift (Logged.report event))

/-- The text of a file, if it can be read. -/
def readText? (path : Path) : DiskWork (Option String) := do
  return ((← getThe Disk).readText path).toOption

/-- Makes the directories that lead to a path. -/
def makeWay (path : Path) : DiskWork Unit :=
  ExceptT.mk fun disk => pure (disk.makeDirectories path.directories)

/-- Writes a text to a file. -/
def writeText (path : Path) (text : String) : DiskWork Unit := do
  let disk ← getThe Disk
  match disk.writeBytes path text.toUTF8 with
  | .ok written => set written
  | .error e => throw e

end DiskWork

/-- A disk to work on. -/
def diskWorkspace : Workspace DiskWork where
  readText? := DiskWork.readText?
  makeWay := DiskWork.makeWay
  writeText := DiskWork.writeText
  report := DiskWork.report

/-- Writes a file on a disk, and makes the directories that lead to it. -/
def DiskWork.writeFile (path : Path) (contents : String) : DiskWork Unit :=
  diskWorkspace.writeFile path contents

/-- Brings a file on a disk up to date, or only checks it. -/
def ensureFile (path contents : String) (check : Bool) : DiskWork Bool :=
  diskWorkspace.ensureFile path contents check

/-- Brings files on a disk up to date, or only checks them. -/
def ensureFiles (check : Bool) (files : List OutputFile) : DiskWork Nat :=
  diskWorkspace.ensureFiles check files

/-- Brings all files of an output up to date on a disk, or only checks them. -/
def writeOutput (output : Output) (config : Config) (nodesDir visitorDir : String)
    (check : Bool) : DiskWork Nat :=
  diskWorkspace.writeOutput output config nodesDir visitorDir check

end TreeSmith

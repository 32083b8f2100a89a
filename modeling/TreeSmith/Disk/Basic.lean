import TreeSmith.Disk.Path

/-!
# TreeSmith.Disk.Basic

**Files and directories.** A disk maps places to what is there. One of its directories is the
working directory, which relative paths start from.

Design points:

* The working directory lies somewhere below the root like any other directory, so a relative path
  and an absolute one may lead to the same place. Nothing here moves or removes it.
* A disk is only ever changed by `put`, which sets the entry at one place. The operations below
  put an entry only where its directory exists.
* Every operation on one path either does all that it says or fails and changes nothing.
* The last step of a path is treated apart from the others: those have to lead through existing
  directories, while the last one may name what does not exist yet.
* Names and paths are limited in size, in bytes. A path that is too long is refused as a whole; a
  name that is too long is refused when it is looked for, so after a fault in front of it.
-/

namespace TreeSmith

/-- What a place holds. -/
inductive Entry where
  | file (bytes : ByteArray)
  | directory

/-- Files are compared by their bytes. -/
instance : DecidableEq Entry
  | .file a, .file b => decidable_of_iff (a.data = b.data) (by
      rw [Entry.file.injEq, ByteArray.ext_iff])
  | .directory, .directory => isTrue rfl
  | .file _, .directory => isFalse (by intro h; cases h)
  | .directory, .file _ => isFalse (by intro h; cases h)

/-- Why an operation on the disk failed. -/
inductive DiskError where
  | notFound
  | isADirectory
  | notADirectory
  | alreadyExists
  /-- A name, or the path as a whole, is too long. -/
  | nameTooLong
  /-- The path holds a zero character, which no name can. -/
  | invalidPath
  /-- A file that should hold text does not. -/
  | invalidText
  deriving DecidableEq, Repr

/-- The wording of a disk error. -/
def DiskError.message : DiskError → String
  | notFound => "No such file or directory (os error 2)"
  | isADirectory => "Is a directory (os error 21)"
  | notADirectory => "Not a directory (os error 20)"
  | alreadyExists => "File exists (os error 17)"
  | nameTooLong => "File name too long (os error 36)"
  | invalidPath => "file name contained an unexpected NUL byte"
  | invalidText => "stream did not contain valid UTF-8"

/-- The entries of a disk by their places. The working directory and those on the way to it exist
always and are not listed. -/
structure Disk where
  working : Location
  entries : List (Location × Entry)

namespace Disk

/-- A disk with nothing on it but the way to its working directory. -/
def empty (working : Location) : Disk := ⟨working, []⟩

/-- What is at a place. -/
def get? (disk : Disk) (place : Location) : Option Entry :=
  if place.LeadsTo disk.working then some .directory else disk.entries.lookup place

/-- Sets what is at a place, in the stead of what was there. -/
def put (disk : Disk) (place : Location) (entry : Entry) : Disk :=
  ⟨disk.working, (place, entry) :: disk.entries.filter (·.1 ≠ place)⟩

@[simp] theorem working_put (disk : Disk) (place : Location) (entry : Entry) :
    (disk.put place entry).working = disk.working := rfl

/-- On the way to the working directory there are directories. -/
theorem get?_of_leadsTo {disk : Disk} {place : Location} (h : place.LeadsTo disk.working) :
    disk.get? place = some .directory :=
  if_pos h

/-- What is no directory is not on the way to the working directory. -/
theorem not_leadsTo_of_get? {disk : Disk} {place : Location}
    (h : disk.get? place ≠ some .directory) : ¬ place.LeadsTo disk.working :=
  fun hleads => h (get?_of_leadsTo hleads)

/-- A place holds what was put there, if it is not on the way to the working directory. -/
theorem get?_put_self (disk : Disk) {place : Location} (h : ¬ place.LeadsTo disk.working)
    (entry : Entry) : (disk.put place entry).get? place = some entry := by
  simp [get?, put, h]

/-- Putting an entry at one place leaves all others alone. -/
theorem get?_put_of_ne (disk : Disk) {place other : Location} (h : other ≠ place)
    (entry : Entry) : (disk.put place entry).get? other = disk.get? other := by
  unfold get? put
  split
  · rfl
  · have hne : (other == place) = false := by simpa using h
    simp only [List.lookup_cons, hne]
    induction disk.entries with
    | nil => rfl
    | cons e es ih =>
      obtain ⟨key, value⟩ := e
      simp only [ne_eq, decide_not] at ih ⊢
      by_cases hk : key = place
      · simp [hk, List.lookup_cons, hne, ih]
      · simp [hk, List.lookup_cons, ih]

/-! ## Following a path -/

/-- The greatest size of a name. -/
def maxName : Nat := 255

/-- The greatest size of a path. -/
def maxPath : Nat := 4095

/-- What is wrong with a path by itself. -/
def fault? (path : Path) : Option DiskError :=
  let chars := path.text.toList
  if chars.contains '\x00' then some .invalidPath
  else if maxPath < Text.size chars then some .nameTooLong
  else if chars.isEmpty then some .notFound
  else none

/-- Looks for a name in a directory. -/
def look (disk : Disk) (directory : Location) (name : String) : Except DiskError (Option Entry) :=
  if maxName < Text.size name.toList then .error .nameTooLong
  else .ok (disk.get? (directory.child name))

/-- The directory that steps lead to from `place`. -/
def enter (disk : Disk) (place : Location) : List PathStep → Except DiskError Location
  | [] => .ok place
  | .here :: steps => disk.enter place steps
  | .up :: steps => disk.enter place.parent steps
  | .entry name :: steps =>
    match disk.look place name with
    | .error e => .error e
    | .ok none => .error .notFound
    | .ok (some (.file _)) => .error .notADirectory
    | .ok (some .directory) => disk.enter (place.child name) steps

/-- Where the last step of a path leads. -/
inductive Target where
  /-- An existing directory, as the last step names no entry. -/
  | directory (place : Location)
  /-- A name in an existing directory. -/
  | entry (directory : Location) (name : String)
  deriving DecidableEq, Repr

/-- Follows all steps of a path but the last, and tells where that one leads. -/
def target (disk : Disk) (path : Path) : Except DiskError Target := do
  if let some e := fault? path then throw e
  let place ← disk.enter (path.start disk.working) path.steps.dropLast
  match path.steps.getLast? with
  | none => return .directory place
  | some .here => return .directory place
  | some .up => return .directory place.parent
  | some (.entry name) => return .entry place name

/-- Does a path lead to an existing directory? -/
def isDirectory (disk : Disk) (path : Path) : Bool :=
  (fault? path).isNone && (disk.enter (path.start disk.working) path.steps).isOk

/-! ## Operations -/

/-- The bytes of a file. -/
def readBytes (disk : Disk) (path : Path) : Except DiskError ByteArray := do
  match ← disk.target path with
  | .directory _ => throw .isADirectory
  | .entry directory name =>
    match ← disk.look directory name with
    | none => throw .notFound
    | some .directory => throw .isADirectory
    | some (.file bytes) => if path.isSlashed then throw .notADirectory else return bytes

/-- The text of a file. -/
def readText (disk : Disk) (path : Path) : Except DiskError String := do
  match String.fromUTF8? (← disk.readBytes path) with
  | some text => return text
  | none => throw .invalidText

/-- Writes a file, a new one or in the stead of an old one. -/
def writeBytes (disk : Disk) (path : Path) (bytes : ByteArray) : Except DiskError Disk := do
  match ← disk.target path with
  | .directory _ => throw .isADirectory
  | .entry directory name =>
    if path.isSlashed then throw .isADirectory
    match ← disk.look directory name with
    | some .directory => throw .isADirectory
    | _ => return disk.put (directory.child name) (.file bytes)

/-- Makes a directory where nothing is yet. -/
def makeDirectory (disk : Disk) (path : Path) : Except DiskError Disk := do
  match ← disk.target path with
  | .directory _ => throw .alreadyExists
  | .entry directory name =>
    match ← disk.look directory name with
    | some _ => throw .alreadyExists
    | none => return disk.put (directory.child name) .directory

/-- Makes the first of some directories, and those behind it as far as it needs them. Each has to
be in the one behind it, and the last one in a directory that exists. Directories made on the way
stay, also if a later one cannot be made. -/
def makeDirectories (disk : Disk) : List Path → Except DiskError Unit × Disk
  | [] => (.ok (), disk)
  | path :: outer =>
    match disk.makeDirectory path with
    | .ok made => (.ok (), made)
    | .error .notFound =>
      match disk.makeDirectories outer with
      | (.error e, disk) => (.error e, disk)
      | (.ok (), disk) =>
        match disk.makeDirectory path with
        | .ok made => (.ok (), made)
        | .error e => (if disk.isDirectory path then .ok () else .error e, disk)
    | .error e => (if disk.isDirectory path then .ok () else .error e, disk)

end Disk

end TreeSmith

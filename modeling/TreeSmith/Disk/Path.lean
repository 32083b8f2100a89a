import TreeSmith.Disk.Location
import TreeSmith.Text.Size

/-!
# TreeSmith.Disk.Path

**Paths as texts and as steps.** A path is its text, written with slashes. Messages show it as it
is; the disk follows its steps.

Design points:

* `joinPath` works on the text alone and normalises nothing, so a path that a message shows is put
  together from what the user gave.
* Repeated slashes make no steps. A path may end in a slash; that says that a directory is meant,
  and matters only to an operation that wants a file.
* The directories that lead to a path are paths themselves (`Path.directories`): its own text, cut
  off behind an earlier piece. Pieces that go nowhere end no such path, except a dot at the very
  start of a relative one.
-/

namespace TreeSmith

/-- The path `name` inside the directory `base`. An absolute name stands alone. -/
def joinPath (base name : String) : String :=
  if name.toList.head? = some '/' then name
  else if base.isEmpty || base.toList.getLast? = some '/' then base ++ name
  else base ++ "/" ++ name

/-- A step of a path. -/
inductive PathStep where
  /-- Stays where it is, written `.`. -/
  | here
  /-- Goes to the parent directory, written `..`. -/
  | up
  /-- Goes to the entry of that name. -/
  | entry (name : String)
  deriving DecidableEq, Repr

/-- A path, by its text. -/
structure Path where
  text : String
  deriving DecidableEq, Repr

namespace Path

/-! ## Pieces -/

/-- The pieces of a text between its slashes. -/
def pieces : List Char → List (List Char)
  | [] => [[]]
  | c :: cs =>
    if c = '/' then [] :: pieces cs
    else
      match pieces cs with
      | [] => [[c]]
      | piece :: rest => (c :: piece) :: rest

theorem pieces_ne_nil (cs : List Char) : pieces cs ≠ [] := by
  cases cs with
  | nil => simp [pieces]
  | cons c cs =>
    simp only [pieces]
    split
    · simp
    · split <;> simp

/-- A piece that a slash follows is the first one. -/
theorem pieces_append_slash {as : List Char} (h : '/' ∉ as) (bs : List Char) :
    pieces (as ++ '/' :: bs) = as :: pieces bs := by
  induction as with
  | nil => simp [pieces]
  | cons a as ih =>
    simp only [List.mem_cons, not_or] at h
    have ha : ¬ a = '/' := fun e => h.1 e.symm
    simp [pieces, ha, ih h.2]

/-- Pieces with slashes between them. -/
def joinPieces : List (List Char) → List Char
  | [] => []
  | [piece] => piece
  | piece :: rest => piece ++ '/' :: joinPieces rest

/-- Cutting a text at its slashes loses nothing else. -/
@[simp] theorem joinPieces_pieces (cs : List Char) : joinPieces (pieces cs) = cs := by
  induction cs with
  | nil => rfl
  | cons c cs ih =>
    simp only [pieces]
    cases hp : pieces cs with
    | nil => exact absurd hp (pieces_ne_nil cs)
    | cons piece rest =>
      rw [hp] at ih
      by_cases hc : c = '/'
      · simp [hc, joinPieces, ih]
      · rw [if_neg hc]
        cases rest with
        | nil => simpa [joinPieces] using ih
        | cons next rest => simpa [joinPieces] using ih

/-- Does the piece go nowhere? -/
def isIdle (piece : List Char) : Bool :=
  piece.isEmpty || piece == ['.']

/-! ## What a path says -/

/-- Does the path start at the root? -/
def isAbsolute (path : Path) : Bool :=
  path.text.toList.head? = some '/'

/-- Where the steps of a path start from, given the working directory. -/
def start (path : Path) (working : Location) : Location :=
  if path.isAbsolute then .root else working

/-- Does the path end in a slash? -/
def isSlashed (path : Path) : Bool :=
  path.text.toList.getLast? = some '/'

/-- The step that a piece between slashes stands for; an empty piece stands for none. -/
def stepOf? (piece : String) : Option PathStep :=
  if piece = "" then none
  else if piece = "." then some .here
  else if piece = ".." then some .up
  else some (.entry piece)

/-- The steps of a path. -/
def steps (path : Path) : List PathStep :=
  (pieces path.text.toList).filterMap fun piece => stepOf? (String.ofList piece)

/-! ## The way to a path -/

/-- The paths that start with the piece `first` and end behind one of the pieces that follow it,
given the last one of these first. -/
def wayFrom (first : List Char) : List (List Char) → List Path
  | [] => if first.isEmpty then [] else [⟨String.ofList first⟩]
  | piece :: before =>
    if isIdle piece then wayFrom first before
    else
      ⟨String.ofList (joinPieces (first :: (piece :: before).reverse))⟩ :: wayFrom first before

/-- A path without what is idle at its end, then the directory that it is in, and so on outwards.
The root and the working directory are left out. -/
def way (path : Path) : List Path :=
  match pieces path.text.toList with
  | [] => []
  | first :: body => wayFrom first body.reverse

/-- The directories that lead to a path, the innermost first. -/
def directories (path : Path) : List Path :=
  path.way.tail

end Path

end TreeSmith

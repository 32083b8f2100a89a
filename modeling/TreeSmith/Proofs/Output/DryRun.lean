import TreeSmith.Proofs.Disk.Tree
import TreeSmith.Proofs.Output.Frame

/-!
# TreeSmith.Proofs.Output.DryRun

**A check says what an update would do.** It succeeds on every disk and leaves it alone, and the
files that it finds out of date are those that an update writes, if the update succeeds
(`writeOutput_dryRun`).

An update looks at a file when the files in front of it are written already, and a check does not.
Both see the same: on a tree, work on files elsewhere can neither spoil a file nor bring one about
(`Disk.GrowsBy.holds_eq`).
-/

namespace TreeSmith

variable {disk after : Disk} {file : OutputFile} {files : List OutputFile}

/-! ## Trees stay trees -/

theorem isTree_writeFile (h : disk.IsTree) (path : Path) (contents : String) :
    ((DiskWork.writeFile path contents).run.run disk).value.2.IsTree := by
  have hway := h.makeDirectories path.directories
  rcases disk_writeFile path contents disk with hmade | hwritten
  · rw [hmade]
    exact hway
  · exact hway.writeBytes hwritten

theorem isTree_ensureFile (h : disk.IsTree) (path contents : String) (check : Bool) :
    ((ensureFile path contents check).run.run disk).value.2.IsTree := by
  rw [disk_ensureFile]
  split
  · exact isTree_writeFile h ⟨path⟩ contents
  · exact h

theorem isTree_ensureFiles (h : disk.IsTree) (files : List OutputFile) (check : Bool) :
    ((ensureFiles check files).run.run disk).value.2.IsTree := by
  induction files generalizing disk with
  | nil => exact h
  | cons file files ih =>
      have hmiddle := isTree_ensureFile h file.path file.contents check
      rcases disk_ensureFiles_cons file files check disk with hstops | hgoes
      · rw [hstops]
        exact hmiddle
      · rw [hgoes]
        exact ih hmiddle

/-! ## What a check and an update see -/

/-- Work on files elsewhere does not change whether a file holds its contents. -/
theorem Disk.GrowsBy.holds_eq (h : disk.GrowsBy files after) (htree : disk.IsTree)
    (hup : .up ∉ (Path.mk file.path).steps)
    (hapart : ∀ other ∈ files,
      (Path.mk file.path).place disk.working ≠ (Path.mk other.path).place disk.working) :
    after.holds file.path file.contents = disk.holds file.path file.contents := by
  refine Bool.eq_iff_iff.2 ⟨fun hholds => ?_, h.holds hapart⟩
  obtain ⟨bytes, hread, hsame⟩ := Disk.holds_iff_readBytes.1 hholds
  -- The file was not written, so it was there before; and in a tree it could be reached then.
  rcases Disk.Grows.origin_of_readBytes h hread with hbefore | ⟨other, hother, hplace, -⟩
  · exact Disk.holds_iff_readBytes.2
      ⟨bytes, htree.readBytes h.working_eq hup hread hbefore, hsame⟩
  · exact absurd hplace (hapart other hother)

/-- The event that reports a file when the disk is like this. -/
def Disk.report (disk : Disk) (check : Bool) (file : OutputFile) : Event :=
  (Verdict.of (disk.holds file.path file.contents) check).event file.path

/-- A step that fails is the last one to report anything. -/
theorem DiskWork.events_bind {α β : Type} (first : DiskWork α) (next : α → DiskWork β)
    (disk : Disk) : ((first >>= next).run.run disk).events =
      (first.run.run disk).events ++
        match (first.run.run disk).value with
        | (.ok a, middle) => ((next a).run.run middle).events
        | (.error _, _) => [] := by
  rw [ExceptT.run_bind, StateT.run_bind, Logged.events_bind]
  rcases (first.run.run disk).value with ⟨result, middle⟩
  cases result <;> rfl

theorem events_writeText (path : Path) (text : String) (disk : Disk) :
    ((DiskWork.writeText path text).run.run disk).events = [] := by
  have hget : (getThe Disk : DiskWork Disk).run.run disk = ⟨(.ok disk, disk), []⟩ := rfl
  rw [DiskWork.writeText, DiskWork.events_bind, hget]
  simp only [List.nil_append]
  cases disk.writeBytes path text.toUTF8 <;> rfl

theorem events_writeFile (path : Path) (contents : String) (disk : Disk) :
    ((DiskWork.writeFile path contents).run.run disk).events = [] := by
  have hway : ((DiskWork.makeWay path).run.run disk).events = [] := rfl
  rw [DiskWork.writeFile_eq, DiskWork.events_bind, hway]
  rcases ((DiskWork.makeWay path).run.run disk).value with ⟨result, made⟩
  cases result with
  | error e => rfl
  | ok => exact events_writeText path contents made

theorem events_ensureFile (file : OutputFile) (check : Bool) (disk : Disk) :
    ((ensureFile file.path file.contents check).run.run disk).events =
      [disk.report check file] := by
  have hverdict : ((ensureFile file.path file.contents check).run.run disk).events =
      disk.report check file :: ((do
        if Verdict.of (disk.holds file.path file.contents) check = .updating then
          DiskWork.writeFile ⟨file.path⟩ file.contents
        return (Verdict.of (disk.holds file.path file.contents) check).isStale :
          DiskWork Bool).run.run disk).events := by
    rw [run_ensureFile]
    rfl
  rw [hverdict]
  split
  · rw [DiskWork.events_bind, events_writeFile]
    rcases ((DiskWork.writeFile ⟨file.path⟩ file.contents).run.run disk).value with ⟨result, made⟩
    cases result <;> rfl
  · rfl

/-! ## A check -/

theorem length_staleAmong_cons (disk : Disk) (file : OutputFile) (files : List OutputFile) :
    (disk.staleAmong (file :: files)).length =
      (if !disk.holds file.path file.contents then 1 else 0) + (disk.staleAmong files).length := by
  rw [Disk.staleAmong, List.filter_cons]
  split
  · rw [List.length_cons, Nat.add_comm, Disk.staleAmong]
  · rw [Nat.zero_add, Disk.staleAmong]

/-- A check succeeds, leaves the disk alone, and reports each file as it is. -/
theorem run_ensureFiles_check (files : List OutputFile) (disk : Disk) :
    ((ensureFiles true files).run.run disk).value = (.ok (disk.staleAmong files).length, disk) ∧
      ((ensureFiles true files).run.run disk).events = files.map (disk.report true) := by
  induction files with
  | nil => exact ⟨rfl, rfl⟩
  | cons file files ih =>
      obtain ⟨hvalue, hevents⟩ := ih
      refine ⟨?_, ?_⟩
      · simp only [value_ensureFiles_cons, value_ensureFile_check, hvalue, length_staleAmong_cons]
      · rw [ensureFiles_cons, DiskWork.events_bind, events_ensureFile, value_ensureFile_check]
        simp only
        rw [DiskWork.events_bind, hevents, hvalue, List.map_cons]
        exact congrArg (disk.report true file :: ·) (List.append_nil _)

theorem value_writeOutput_check (output : Output) (config : Config)
    (nodesDir visitorDir : String) (disk : Disk) :
    ((writeOutput output config nodesDir visitorDir true).run.run disk).value =
      (.ok (disk.staleAmong (outputFiles output config nodesDir visitorDir)).length, disk) := by
  rw [value_writeOutput, (run_ensureFiles_check _ disk).1]

/-! ## An update -/

theorem eq_of_ensureFile {wasStale check : Bool}
    (h : ((ensureFile file.path file.contents check).run.run disk).value = (.ok wasStale, after)) :
    wasStale = !disk.holds file.path file.contents := by
  rw [value_ensureFile] at h
  split at h
  · rename_i hupdating
    rcases hwritten : ((DiskWork.writeFile ⟨file.path⟩ file.contents).run.run disk).value with
      ⟨result, made⟩
    rw [hwritten] at h
    cases result with
    | error e => cases h
    | ok =>
        cases h
        rw [(Verdict.of_eq_updating_iff.1 hupdating).1]
        rfl
  · cases h
    rfl

/-- Bringing one file up to date does not change how the files behind it are seen. -/
theorem holds_behind (htree : disk.IsTree) (hseparate : Separate disk.working (file :: files))
    {other : OutputFile} (hother : other ∈ files) :
    ((ensureFile file.path file.contents false).run.run disk).value.2.holds
      other.path other.contents = disk.holds other.path other.contents := by
  have hup := hseparate.plain other (List.mem_cons_of_mem _ hother)
  refine (growsBy_ensureFile file false disk).holds_eq htree (Path.up_notMem_steps hup)
    fun one hone => ?_
  rw [List.mem_singleton.1 hone]
  exact ((List.pairwise_cons.1 hseparate.apart).1 other hother).symm

/-- An update that succeeds counts and reports the files as they are before anything is written. -/
theorem run_ensureFiles_update (htree : disk.IsTree)
    (hseparate : Separate disk.working files) {updated : Nat}
    (h : ((ensureFiles false files).run.run disk).value = (.ok updated, after)) :
    updated = (disk.staleAmong files).length ∧
      ((ensureFiles false files).run.run disk).events = files.map (disk.report false) := by
  induction files generalizing disk updated with
  | nil =>
      cases h
      exact ⟨rfl, rfl⟩
  | cons file files ih =>
      have hmiddleTree := isTree_ensureFile htree file.path file.contents false
      have hworking := (growsBy_ensureFile file false disk).working_eq
      have hsame := fun other (hother : other ∈ files) => holds_behind htree hseparate hother
      rw [value_ensureFiles_cons] at h
      rw [ensureFiles_cons, DiskWork.events_bind, events_ensureFile]
      rcases hmiddle : ((ensureFile file.path file.contents false).run.run disk).value with
        ⟨first, middle⟩
      rw [hmiddle] at h hsame hmiddleTree hworking
      cases first with
      | error e => cases h
      | ok wasStale =>
          rcases hrest : ((ensureFiles false files).run.run middle).value with ⟨others, last⟩
          simp only [hrest] at h
          cases others with
          | error e => cases h
          | ok count =>
              cases h
              obtain ⟨hcount, hevents⟩ := ih hmiddleTree (hworking ▸ hseparate.tail) hrest
              have hstale : middle.staleAmong files = disk.staleAmong files :=
                List.filter_congr fun other hother => by rw [hsame other hother]
              have hreports : files.map (middle.report false) = files.map (disk.report false) :=
                List.map_congr_left fun other hother => by
                  rw [Disk.report, Disk.report, hsame other hother]
              refine ⟨?_, ?_⟩
              · rw [eq_of_ensureFile hmiddle, length_staleAmong_cons, hcount, hstale]
              · simp only
                rw [DiskWork.events_bind, hevents, hrest, hreports, List.map_cons]
                exact congrArg (disk.report false file :: ·) (List.append_nil _)

section Written

variable (hseparate : Separate disk.working files) {updated : Nat}
  (h : ((ensureFiles false files).run.run disk).value = (.ok updated, after))
  (hfile : file ∈ files)

include hseparate h hfile

/-- A file that holds its contents keeps its bytes. -/
theorem readBytes_of_holds (hholds : disk.holds file.path file.contents = true) :
    after.readBytes ⟨file.path⟩ = disk.readBytes ⟨file.path⟩ := by
  have hgrows := growsBy_staleAmong hseparate.apart false
  rw [h] at hgrows
  obtain ⟨bytes, hread, -⟩ := Disk.holds_iff_readBytes.1 hholds
  rw [hread]
  exact Disk.Grows.readBytes hgrows (fun _ ⟨other, hother, hplace, _⟩ =>
    hseparate.place_ne_of_stale hfile hholds other hother hplace) hread

/-- A file that does not is written. -/
theorem readBytes_of_stale (htree : disk.IsTree)
    (hstale : disk.holds file.path file.contents = false) :
    after.readBytes ⟨file.path⟩ = .ok file.contents.toUTF8 ∧
      disk.readBytes ⟨file.path⟩ ≠ .ok file.contents.toUTF8 := by
  have hup := Path.up_notMem_steps (hseparate.plain file hfile)
  have hgrows := growsBy_ensureFiles files false disk
  rw [h] at hgrows
  obtain ⟨bytes, hread, hsame⟩ :=
    Disk.holds_iff_readBytes.1 (holds_of_ensureFiles hseparate.apart h file hfile)
  rw [← Bool.not_eq_true, Disk.holds_iff_readBytes] at hstale
  constructor
  · rcases Disk.Grows.origin_of_readBytes hgrows hread with
      hbefore | ⟨other, hother, hplace, hcontents⟩
    · -- It would have held its contents already.
      exact absurd ⟨bytes, htree.readBytes hgrows.working_eq hup hread hbefore, hsame⟩ hstale
    · rw [hread, hcontents, hseparate.eq_of_place_eq hfile hother hplace]
  · intro hheld
    exact hstale ⟨_, hheld, file.contents, fromUTF8?_toUTF8 _, beq_self_eq_true _⟩

end Written

/-! ## A check and an update -/

theorem events_writeOutput (output : Output) (config : Config) (nodesDir visitorDir : String)
    (check : Bool) (disk : Disk) {stale : Nat}
    (h : ((ensureFiles check (outputFiles output config nodesDir visitorDir)).run.run disk).value =
      (.ok stale, after)) :
    ((writeOutput output config nodesDir visitorDir check).run.run disk).events =
      ((ensureFiles check (outputFiles output config nodesDir visitorDir)).run.run disk).events ++
        [if check then .stale stale else .updated stale] := by
  rw [writeOutput_eq, DiskWork.events_bind, h]
  rfl

end TreeSmith

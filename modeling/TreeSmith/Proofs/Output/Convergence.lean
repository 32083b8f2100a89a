import TreeSmith.Output.Update
import TreeSmith.Proofs.Disk.Growth

/-!
# TreeSmith.Proofs.Output.Convergence

**Once an output is written, there is nothing left to write.** Every file holds its contents after
an update that succeeds, be it that it was written or that it held them before, up to the kind of
its line ends. Another update, or a check, finds all files up to date and leaves the disk alone
(`writeOutput_converges`).

A file is spoiled by nothing that is done for the files behind it: the disk only grows, and their
paths lead elsewhere (`Separate.apart`). That takes more than paths with different components, as a
relative path may lead to the same place as an absolute one; they have to be different once the
relative ones are taken from the working directory.
-/

namespace TreeSmith

/-! ## Paths that lead to different places -/

/-- The components of a path: whether it starts at the root, and its steps. A dot goes nowhere and
is no component. -/
def Path.components (path : Path) : Bool × List PathStep :=
  (path.isAbsolute, path.steps.filter (· ≠ .here))

/-- The components of a path from the root on. A relative path is taken from the working
directory. -/
def Path.componentsFrom (working : Location) (path : Path) : List PathStep :=
  (if path.isAbsolute then [] else working.names.map .entry) ++ path.components.2

theorem Path.up_notMem_steps {path : Path} (h : .up ∉ path.components.2) : .up ∉ path.steps :=
  fun hup => h (List.mem_filter.2 ⟨hup, rfl⟩)

/-- Without steps to a parent, the components of a path are the names of the place that it leads
to. -/
theorem Path.componentsFrom_eq {path : Path} (hup : .up ∉ path.components.2) (working : Location) :
    path.componentsFrom working = (path.place working).names.map .entry := by
  obtain ⟨names, hnames, hplace⟩ :=
    foldl_step_of_not_mem (up_notMem_steps hup) (path.start working)
  rw [componentsFrom, components, hnames, place, hplace, List.map_append, start]
  split <;> rfl

/-- The paths of the files lead to different places. -/
def Apart (working : Location) (files : List OutputFile) : Prop :=
  files.Pairwise fun a b => (Path.mk a.path).place working ≠ (Path.mk b.path).place working

/-- No file's path leads through a parent, and no two of them have the same components from the
root on. -/
structure Separate (working : Location) (files : List OutputFile) : Prop where
  plain : ∀ file ∈ files, .up ∉ (Path.mk file.path).components.2
  distinct : files.Pairwise fun a b =>
    (Path.mk a.path).componentsFrom working ≠ (Path.mk b.path).componentsFrom working

theorem Separate.apart {working : Location} {files : List OutputFile}
    (h : Separate working files) : Apart working files :=
  h.distinct.imp_of_mem fun {a b} ha hb hne heq => hne <| by
    rw [Path.componentsFrom_eq (h.plain a ha), Path.componentsFrom_eq (h.plain b hb), heq]

/-! ## Writing one file -/

/-- A disk grows by some files: only these are written, with their contents, and only directories
that lead to them are made. -/
def Disk.GrowsBy (files : List OutputFile) (disk later : Disk) : Prop :=
  disk.Grows
    (fun place => ∃ file ∈ files, ∃ directory ∈ (Path.mk file.path).directories,
      place = directory.place disk.working)
    (fun place bytes => ∃ file ∈ files, place = (Path.mk file.path).place disk.working ∧
      bytes = file.contents.toUTF8)
    later

theorem Disk.GrowsBy.mono {files others : List OutputFile} {disk later : Disk}
    (h : disk.GrowsBy files later) (hfiles : files ⊆ others) : disk.GrowsBy others later :=
  Disk.Grows.mono (fun _ ⟨file, hfile, hmade⟩ => ⟨file, hfiles hfile, hmade⟩)
    (fun _ _ ⟨file, hfile, hwritten⟩ => ⟨file, hfiles hfile, hwritten⟩) h

theorem Disk.GrowsBy.trans {files : List OutputFile} {disk later last : Disk}
    (h : disk.GrowsBy files later) (h' : later.GrowsBy files last) : disk.GrowsBy files last := by
  unfold GrowsBy at h'
  rw [h.working_eq] at h'
  exact Disk.Grows.trans h h'

/-- What is encoded can be decoded. -/
theorem fromUTF8?_toUTF8 (text : String) : String.fromUTF8? text.toUTF8 = some text :=
  dif_pos text.isValidUTF8

theorem Disk.readText_eq_ok {disk : Disk} {path : Path} {text : String} :
    disk.readText path = .ok text ↔
      ∃ bytes, disk.readBytes path = .ok bytes ∧ String.fromUTF8? bytes = some text := by
  unfold readText
  cases disk.readBytes path with
  | error e => simp [bind, Except.bind]
  | ok bytes =>
      cases hdecode : String.fromUTF8? bytes <;>
        simp [bind, Except.bind, hdecode, throw, throwThe, MonadExceptOf.throw, pure, Except.pure]

theorem Disk.holds_iff {disk : Disk} {path contents : String} :
    disk.holds path contents = true ↔
      ∃ text, disk.readText ⟨path⟩ = .ok text ∧ sameText text contents = true := by
  unfold holds
  cases disk.readText ⟨path⟩ <;> simp

/-- Of a file with a text in it, the text is compared. -/
theorem Disk.holds_of_readBytes {disk : Disk} {path text contents : String}
    (h : disk.readBytes ⟨path⟩ = .ok text.toUTF8) :
    disk.holds path contents = sameText text contents := by
  rw [holds, Disk.readText_eq_ok.2 ⟨_, h, fromUTF8?_toUTF8 text⟩]

/-! ### Work on a disk, step by step -/

theorem DiskWork.writeFile_eq (path : Path) (contents : String) :
    writeFile path contents = (do makeWay path; writeText path contents) := rfl

theorem ensureFiles_cons (check : Bool) (file : OutputFile) (files : List OutputFile) :
    ensureFiles check (file :: files) = (do
      let wasStale ← ensureFile file.path file.contents check
      let stale ← ensureFiles check files
      return (if wasStale then 1 else 0) + stale) := rfl

theorem writeOutput_eq (output : Output) (config : Config) (nodesDir visitorDir : String)
    (check : Bool) : writeOutput output config nodesDir visitorDir check = (do
      let stale ← ensureFiles check (outputFiles output config nodesDir visitorDir)
      DiskWork.report (if check then .stale stale else .updated stale)
      return stale) := rfl

/-- Looking at the disk leaves it alone. -/
theorem run_holds (path contents : String) (disk : Disk) :
    (diskWorkspace.holds path contents).run.run disk =
      pure (.ok (disk.holds path contents), disk) := by
  have hread : (diskWorkspace.readText? ⟨path⟩).run.run disk =
      pure (.ok (disk.readText ⟨path⟩).toOption, disk) := rfl
  rw [Workspace.holds, ExceptT.run_bind, StateT.run_bind, hread, pure_bind, Disk.holds]
  cases disk.readText ⟨path⟩ <;> rfl

/-- What is done about a file is decided by looking at it once. -/
theorem run_ensureFile (path contents : String) (check : Bool) (disk : Disk) :
    (ensureFile path contents check).run.run disk =
      (do
        DiskWork.report ((Verdict.of (disk.holds path contents) check).event path)
        if Verdict.of (disk.holds path contents) check = .updating then
          DiskWork.writeFile ⟨path⟩ contents
        return (Verdict.of (disk.holds path contents) check).isStale : DiskWork Bool).run.run
          disk := by
  rw [ensureFile, Workspace.ensureFile, ExceptT.run_bind, StateT.run_bind, run_holds, pure_bind]
  rfl

section Writing

variable {disk after : Disk}

theorem value_writeText (path : Path) (text : String) (disk : Disk) :
    ((DiskWork.writeText path text).run.run disk).value =
      match disk.writeBytes path text.toUTF8 with
      | .ok written => (.ok (), written)
      | .error e => (.error e, disk) := by
  have hget : ((DiskWork.writeText path text).run.run disk).value =
      (((match disk.writeBytes path text.toUTF8 with
        | .ok written => set written
        | .error e => throw e : DiskWork Unit)).run.run disk).value := rfl
  rw [hget]
  cases disk.writeBytes path text.toUTF8 with
  | ok written => rfl
  | error e => rfl

theorem value_writeFile (path : Path) (contents : String) (disk : Disk) :
    ((DiskWork.writeFile path contents).run.run disk).value =
      match disk.makeDirectories path.directories with
      | (.error e, made) => (.error e, made)
      | (.ok (), made) => ((DiskWork.writeText path contents).run.run made).value := by
  rw [DiskWork.writeFile_eq, ExceptT.run_bind, StateT.run_bind, Logged.value_bind]
  rcases hmade : disk.makeDirectories path.directories with ⟨result, made⟩
  have hway : ((DiskWork.makeWay path).run.run disk).value = (result, made) := hmade
  rw [hway]
  cases result with
  | error e => rfl
  | ok => rfl

/-- Writing a file stops when the directories are made, as far as they are, or writes it as well. -/
theorem disk_writeFile (path : Path) (contents : String) (disk : Disk) :
    ((DiskWork.writeFile path contents).run.run disk).value.2 =
        (disk.makeDirectories path.directories).2 ∨
      (disk.makeDirectories path.directories).2.writeBytes path contents.toUTF8 =
        .ok ((DiskWork.writeFile path contents).run.run disk).value.2 := by
  rw [value_writeFile]
  rcases disk.makeDirectories path.directories with ⟨result, made⟩
  cases result with
  | error e => exact Or.inl rfl
  | ok =>
      simp only [value_writeText]
      cases hwritten : made.writeBytes path contents.toUTF8 with
      | error e => exact Or.inl rfl
      | ok written => exact Or.inr rfl

/-- Writing a file makes directories that lead to it and writes it, as far as it gets. -/
theorem growsBy_writeFile (file : OutputFile) (disk : Disk) :
    disk.GrowsBy [file] ((DiskWork.writeFile ⟨file.path⟩ file.contents).run.run disk).value.2 := by
  have hway : disk.GrowsBy [file] (disk.makeDirectories (Path.mk file.path).directories).2 :=
    Disk.Grows.mono (fun _ hplace => ⟨file, List.mem_singleton_self file, hplace⟩)
      (fun _ _ => False.elim) (Disk.growsAlong_makeDirectories disk _)
  rcases disk_writeFile ⟨file.path⟩ file.contents disk with hmade | hwritten
  · rw [hmade]
    exact hway
  · exact hway.trans <| (Disk.grows_of_writeBytes hwritten).mono (fun _ => False.elim)
      fun _ _ hplace => ⟨file, List.mem_singleton_self file, hplace⟩

/-- A file that was written holds its contents. -/
theorem readText_of_writeFile {path : Path} {contents : String}
    (h : ((DiskWork.writeFile path contents).run.run disk).value = (.ok (), after)) :
    after.readText path = .ok contents := by
  rw [value_writeFile] at h
  rcases hmade : disk.makeDirectories path.directories with ⟨result, made⟩
  rw [hmade] at h
  cases result with
  | error e => cases h
  | ok =>
      simp only [value_writeText] at h
      cases hwritten : made.writeBytes path contents.toUTF8 with
      | error e =>
          rw [hwritten] at h
          cases h
      | ok written =>
          rw [hwritten] at h
          cases h
          exact Disk.readText_eq_ok.2
            ⟨_, Disk.readBytes_of_writeBytes hwritten, fromUTF8?_toUTF8 contents⟩

end Writing

/-! ## Bringing files up to date -/

section Updating

variable {disk after : Disk} {file : OutputFile} {files : List OutputFile} {check : Bool}

theorem value_ensureFile (path contents : String) (check : Bool) (disk : Disk) :
    ((ensureFile path contents check).run.run disk).value =
      if Verdict.of (disk.holds path contents) check = .updating then
        match ((DiskWork.writeFile ⟨path⟩ contents).run.run disk).value with
        | (.ok (), after) => (.ok true, after)
        | (.error e, after) => (.error e, after)
      else (.ok (!disk.holds path contents), disk) := by
  -- Reporting the verdict leaves the disk alone.
  have hverdict : ((ensureFile path contents check).run.run disk).value =
      ((do
        if Verdict.of (disk.holds path contents) check = .updating then
          DiskWork.writeFile ⟨path⟩ contents
        return (Verdict.of (disk.holds path contents) check).isStale :
          DiskWork Bool).run.run disk).value := by
    rw [run_ensureFile]
    rfl
  rw [hverdict, Verdict.isStale_of]
  split
  · rename_i hupdating
    rw [ExceptT.run_bind, StateT.run_bind, Logged.value_bind,
      (Verdict.of_eq_updating_iff.1 hupdating).1]
    rcases ((DiskWork.writeFile ⟨path⟩ contents).run.run disk).value with ⟨result, after⟩
    cases result <;> rfl
  · rfl

theorem disk_ensureFile (path contents : String) (check : Bool) (disk : Disk) :
    ((ensureFile path contents check).run.run disk).value.2 =
      if Verdict.of (disk.holds path contents) check = .updating then
        ((DiskWork.writeFile ⟨path⟩ contents).run.run disk).value.2
      else disk := by
  rw [value_ensureFile]
  split
  · rcases ((DiskWork.writeFile ⟨path⟩ contents).run.run disk).value with ⟨result, after⟩
    cases result <;> rfl
  · rfl

/-- A check of a file says whether it holds its contents. -/
theorem value_ensureFile_check (path contents : String) (disk : Disk) :
    ((ensureFile path contents true).run.run disk).value =
      (.ok (!disk.holds path contents), disk) := by
  rw [value_ensureFile, if_neg]
  intro hupdating
  cases (Verdict.of_eq_updating_iff.1 hupdating).2

/-- Whether or not it succeeds, bringing a file up to date changes nothing but for this file. -/
theorem growsBy_ensureFile (file : OutputFile) (check : Bool) (disk : Disk) :
    disk.GrowsBy [file] ((ensureFile file.path file.contents check).run.run disk).value.2 := by
  rw [disk_ensureFile]
  split
  · exact growsBy_writeFile file disk
  · exact .refl

/-- A file that was brought up to date holds its contents. -/
theorem holds_of_ensureFile {stale : Bool}
    (h : ((ensureFile file.path file.contents false).run.run disk).value = (.ok stale, after)) :
    after.holds file.path file.contents = true := by
  rw [value_ensureFile] at h
  split at h
  · rcases hwritten : ((DiskWork.writeFile ⟨file.path⟩ file.contents).run.run disk).value with
      ⟨result, written⟩
    rw [hwritten] at h
    cases result with
    | error e => cases h
    | ok =>
        cases h
        exact Disk.holds_iff.2 ⟨_, readText_of_writeFile hwritten, beq_self_eq_true _⟩
  · rename_i hverdict
    cases h
    cases hholds : disk.holds file.path file.contents with
    | true => rfl
    | false => exact absurd (Verdict.of_eq_updating_iff.2 ⟨hholds, rfl⟩) hverdict

/-- A file that holds its contents is left alone. -/
theorem value_ensureFile_of_holds (h : disk.holds file.path file.contents = true) :
    ((ensureFile file.path file.contents check).run.run disk).value = (.ok false, disk) := by
  rw [value_ensureFile, h]
  rfl

/-- A file still holds its contents after work on files elsewhere. -/
theorem Disk.GrowsBy.holds (h : disk.GrowsBy files after)
    (hapart : ∀ other ∈ files,
      (Path.mk file.path).place disk.working ≠ (Path.mk other.path).place disk.working)
    (hholds : disk.holds file.path file.contents = true) :
    after.holds file.path file.contents = true := by
  obtain ⟨text, hread, hsame⟩ := Disk.holds_iff.1 hholds
  obtain ⟨bytes, hbytes, hdecode⟩ := Disk.readText_eq_ok.1 hread
  have hkept : after.readBytes ⟨file.path⟩ = .ok bytes :=
    Disk.Grows.readBytes h (fun _ ⟨other, hother, hplace, _⟩ => hapart other hother hplace) hbytes
  exact Disk.holds_iff.2 ⟨text, Disk.readText_eq_ok.2 ⟨bytes, hkept, hdecode⟩, hsame⟩

theorem value_ensureFiles_cons (file : OutputFile) (files : List OutputFile) (check : Bool)
    (disk : Disk) :
    ((ensureFiles check (file :: files)).run.run disk).value =
      match ((ensureFile file.path file.contents check).run.run disk).value with
      | (.error e, middle) => (.error e, middle)
      | (.ok wasStale, middle) =>
        match ((ensureFiles check files).run.run middle).value with
        | (.error e, after) => (.error e, after)
        | (.ok stale, after) => (.ok ((if wasStale then 1 else 0) + stale), after) := by
  rw [ensureFiles_cons, ExceptT.run_bind, StateT.run_bind, Logged.value_bind]
  rcases ((ensureFile file.path file.contents check).run.run disk).value with ⟨first, middle⟩
  cases first with
  | error e => rfl
  | ok wasStale =>
      simp only
      rw [ExceptT.run_bind, StateT.run_bind, Logged.value_bind]
      rcases ((ensureFiles check files).run.run middle).value with ⟨others, after⟩
      cases others <;> rfl

/-- What is done to the disk is what is done for the first file, or that and then all the rest. -/
theorem disk_ensureFiles_cons (file : OutputFile) (files : List OutputFile) (check : Bool)
    (disk : Disk) :
    let middle := ((ensureFile file.path file.contents check).run.run disk).value.2
    ((ensureFiles check (file :: files)).run.run disk).value.2 = middle ∨
      ((ensureFiles check (file :: files)).run.run disk).value.2 =
        ((ensureFiles check files).run.run middle).value.2 := by
  rw [value_ensureFiles_cons]
  rcases ((ensureFile file.path file.contents check).run.run disk).value with ⟨first, middle⟩
  cases first with
  | error e => exact Or.inl rfl
  | ok wasStale =>
      refine Or.inr ?_
      simp only
      rcases ((ensureFiles check files).run.run middle).value with ⟨others, after⟩
      cases others <;> rfl

/-- Whether or not it succeeds, bringing files up to date changes nothing but for these files. -/
theorem growsBy_ensureFiles (files : List OutputFile) (check : Bool) (disk : Disk) :
    disk.GrowsBy files ((ensureFiles check files).run.run disk).value.2 := by
  induction files generalizing disk with
  | nil => exact .refl
  | cons file files ih =>
      have hfirst : disk.GrowsBy (file :: files)
          ((ensureFile file.path file.contents check).run.run disk).value.2 :=
        (growsBy_ensureFile file check disk).mono fun other hother =>
          List.mem_singleton.1 hother ▸ List.mem_cons_self
      rcases disk_ensureFiles_cons file files check disk with hstops | hgoes
      · rw [hstops]
        exact hfirst
      · rw [hgoes]
        exact hfirst.trans ((ih _).mono (List.subset_cons_self file files))

/-- Files at different places all hold their contents once they were brought up to date. -/
theorem holds_of_ensureFiles {stale : Nat}
    (hapart : Apart disk.working files)
    (h : ((ensureFiles false files).run.run disk).value = (.ok stale, after)) :
    ∀ file ∈ files, after.holds file.path file.contents = true := by
  induction files generalizing disk stale with
  | nil => exact List.forall_mem_nil _
  | cons file files ih =>
      obtain ⟨hfile, hapart⟩ := List.pairwise_cons.1 hapart
      rw [value_ensureFiles_cons] at h
      rcases hmiddle : ((ensureFile file.path file.contents false).run.run disk).value with
        ⟨first, middle⟩
      rw [hmiddle] at h
      cases first with
      | error e => cases h
      | ok wasStale =>
          have hmiddleGrows := growsBy_ensureFile file false disk
          rw [hmiddle] at hmiddleGrows
          rw [← hmiddleGrows.working_eq] at hfile hapart
          have hgrows := growsBy_ensureFiles files false middle
          rcases hafter : ((ensureFiles false files).run.run middle).value with ⟨others, last⟩
          simp only [hafter] at h hgrows
          cases others with
          | error e => cases h
          | ok count =>
              cases h
              -- The first file holds its contents in the middle, and the others are elsewhere.
              exact List.forall_mem_cons.2
                ⟨hgrows.holds hfile (holds_of_ensureFile hmiddle), ih hapart hafter⟩

/-- Files that hold their contents are left alone. -/
theorem value_ensureFiles_of_holds
    (h : ∀ file ∈ files, disk.holds file.path file.contents = true) :
    ((ensureFiles check files).run.run disk).value = (.ok 0, disk) := by
  induction files with
  | nil => rfl
  | cons file files ih =>
      obtain ⟨hfile, hfiles⟩ := List.forall_mem_cons.1 h
      simp only [value_ensureFiles_cons, value_ensureFile_of_holds hfile, ih hfiles]
      rfl

end Updating

/-! ## Bringing an output up to date -/

/-- The report at the end aside, the files are all that an output is about. -/
theorem value_writeOutput (output : Output) (config : Config) (nodesDir visitorDir : String)
    (check : Bool) (disk : Disk) :
    ((writeOutput output config nodesDir visitorDir check).run.run disk).value =
      ((ensureFiles check (outputFiles output config nodesDir visitorDir)).run.run disk).value := by
  rw [writeOutput_eq, ExceptT.run_bind, StateT.run_bind, Logged.value_bind]
  rcases ((ensureFiles check (outputFiles output config nodesDir visitorDir)).run.run disk).value
    with ⟨result, after⟩
  cases result <;> rfl

/-- An output of which a node type and a visitor have one name. -/
def namesakes : Output where
  nodeTypes := [⟨"A", "class A\n"⟩]
  nodeInterface := ⟨"INode", "interface INode\n"⟩
  supportClasses := []
  visitors := [⟨"A", "interface A\n"⟩]

/-- Its files, in a directory below the working directory `/w` that is named in two ways. -/
theorem outputFiles_namesakes : outputFiles namesakes {} "out" "/w/out" =
    [⟨"out/A.java", fileNotice ++ "\n\nclass A\n"⟩,
      ⟨"out/INode.java", fileNotice ++ "\n\ninterface INode\n"⟩,
      ⟨"/w/out/A.java", fileNotice ++ "\n\ninterface A\n"⟩] := by
  decide +kernel

/-- Their paths have different components, and neither dots nor steps to a parent in them. -/
theorem plain_namesakes :
    (∀ file ∈ outputFiles namesakes {} "out" "/w/out",
      .here ∉ (Path.mk file.path).steps ∧ .up ∉ (Path.mk file.path).steps) ∧
    (outputFiles namesakes {} "out" "/w/out").Pairwise fun a b =>
      (Path.mk a.path).components ≠ (Path.mk b.path).components := by
  rw [outputFiles_namesakes]
  exact ⟨by decide +kernel, by decide +kernel⟩

end TreeSmith

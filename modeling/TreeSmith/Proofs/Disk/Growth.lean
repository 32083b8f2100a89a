import TreeSmith.Disk.Basic

/-!
# TreeSmith.Proofs.Disk.Growth

**A disk only ever grows.** An operation makes a directory where nothing was, or writes a file where
no directory is (`Disk.Grows`). So a directory stays one, a file that is not written stays as it is,
and what was read once can be read again.

Where a path leads depends on its steps and on the working directory alone (`Path.place`): following
it on a disk checks that the way exists, but does not choose it.
-/

namespace TreeSmith

/-! ## Where a path leads -/

/-- Where a step leads from a place. -/
def Location.step (place : Location) : PathStep → Location
  | .here => place
  | .up => place.parent
  | .entry name => place.child name

/-- Where a path leads, given the working directory. -/
def Path.place (path : Path) (working : Location) : Location :=
  path.steps.foldl Location.step (path.start working)

/-- Without steps to a parent, steps lead to the place that their names spell. -/
theorem foldl_step_of_not_mem {steps : List PathStep} (h : .up ∉ steps) (place : Location) :
    ∃ names, steps.filter (· ≠ .here) = names.map .entry ∧
      steps.foldl Location.step place = ⟨place.names ++ names⟩ := by
  induction steps generalizing place with
  | nil => exact ⟨[], rfl, by simp⟩
  | cons step steps ih =>
      obtain ⟨hstep, hsteps⟩ := not_or.1 (mt List.mem_cons.2 h)
      obtain ⟨names, hnames, hplace⟩ := ih hsteps (place.step step)
      cases step with
      | here => exact ⟨names, by simpa using hnames, hplace⟩
      | up => exact absurd rfl hstep
      | entry name =>
          refine ⟨name :: names, by simpa using hnames, ?_⟩
          rw [List.foldl_cons, hplace]
          simp [Location.step]

namespace Disk

variable {disk later : Disk} {path : Path} {place : Location} {bytes : ByteArray}

theorem enter_eq_foldl {steps : List PathStep} {found : Location}
    (h : disk.enter place steps = .ok found) : found = steps.foldl Location.step place := by
  fun_induction Disk.enter disk place steps with
  | case1 place => exact (Except.ok.inj h).symm
  | case2 place steps ih => exact ih h
  | case3 place steps ih => exact ih h
  | case4 => cases h
  | case5 => cases h
  | case6 => cases h
  | case7 place name steps _ ih => exact ih h

theorem look_eq_ok {directory : Location} {name : String} {entry : Option Entry} :
    disk.look directory name = .ok entry ↔
      Text.size name.toList ≤ maxName ∧ entry = disk.get? (directory.child name) := by
  unfold look
  split
  · simp; omega
  · simp [eq_comm]; omega

/-- The directories on the way to a path are found again where none was lost. -/
theorem enter_mono {steps : List PathStep} {found : Location}
    (hdirectories : ∀ place, disk.get? place = some .directory →
      later.get? place = some .directory)
    (h : disk.enter place steps = .ok found) : later.enter place steps = .ok found := by
  fun_induction Disk.enter disk place steps with
  | case1 place => exact h
  | case2 place steps ih => exact ih h
  | case3 place steps ih => exact ih h
  | case4 => cases h
  | case5 => cases h
  | case6 => cases h
  | case7 place name steps hlook ih =>
      obtain ⟨hsize, hentry⟩ := look_eq_ok.1 hlook
      have hlater : later.look place name = .ok (some .directory) :=
        look_eq_ok.2 ⟨hsize, (hdirectories _ hentry.symm).symm⟩
      rw [enter, hlater]
      exact ih h

theorem target_eq_ok {found : Target} :
    disk.target path = .ok found ↔ fault? path = none ∧
      ∃ place, disk.enter (path.start disk.working) path.steps.dropLast = .ok place ∧
        found = match path.steps.getLast? with
          | some .up => .directory place.parent
          | some (.entry name) => .entry place name
          | _ => .directory place := by
  unfold target
  cases fault? path with
  | some e => simp [throw, throwThe, MonadExceptOf.throw, bind, Except.bind]
  | none =>
      cases disk.enter (path.start disk.working) path.steps.dropLast with
      | error e => simp [bind, Except.bind]
      | ok place =>
          cases path.steps.getLast? with
          | none => simp [bind, Except.bind, pure, Except.pure, eq_comm]
          | some step => cases step <;> simp [bind, Except.bind, pure, Except.pure, eq_comm]

/-- The entry that a path names is at the place that the path leads to. -/
theorem child_of_target {directory : Location} {name : String}
    (h : disk.target path = .ok (.entry directory name)) :
    directory.child name = path.place disk.working := by
  obtain ⟨-, place, henter, hfound⟩ := target_eq_ok.1 h
  split at hfound
  · cases hfound
  · rename_i last hlast
    obtain ⟨rfl, rfl⟩ := Target.entry.inj hfound
    obtain ⟨front, hsteps⟩ := List.getLast?_eq_some_iff.1 hlast
    rw [hsteps, List.dropLast_concat] at henter
    rw [Path.place, hsteps, List.foldl_append, ← enter_eq_foldl henter]
    rfl
  · cases hfound

/-- A path leads where it led before, if no directory was lost. -/
theorem target_mono {found : Target} (hworking : later.working = disk.working)
    (hdirectories : ∀ place, disk.get? place = some .directory →
      later.get? place = some .directory)
    (h : disk.target path = .ok found) : later.target path = .ok found := by
  obtain ⟨hfault, place, henter, hfound⟩ := target_eq_ok.1 h
  rw [← hworking] at henter
  exact target_eq_ok.2 ⟨hfault, place, enter_mono hdirectories henter, hfound⟩

/-! ## What an operation does if it succeeds -/

theorem readBytes_eq_ok : disk.readBytes path = .ok bytes ↔
    ∃ directory name, disk.target path = .ok (.entry directory name) ∧
      disk.look directory name = .ok (some (.file bytes)) ∧ path.isSlashed = false := by
  unfold readBytes
  cases disk.target path with
  | error e => simp [bind, Except.bind]
  | ok found =>
      cases found with
      | directory place => simp [bind, Except.bind, throw, throwThe, MonadExceptOf.throw]
      | entry directory name =>
          simp only [bind, Except.bind, throw, throwThe, MonadExceptOf.throw, pure, Except.pure]
          cases hlook : disk.look directory name with
          | error e => simp [and_assoc, hlook]
          | ok entry =>
              cases entry with
              | none => simp [and_assoc, hlook]
              | some entry => cases entry <;> cases path.isSlashed <;> simp [and_assoc, hlook]

theorem writeBytes_eq_ok : disk.writeBytes path bytes = .ok later ↔
    ∃ directory name entry, disk.target path = .ok (.entry directory name) ∧
      path.isSlashed = false ∧ disk.look directory name = .ok entry ∧
      entry ≠ some .directory ∧ later = disk.put (directory.child name) (.file bytes) := by
  unfold writeBytes
  cases disk.target path with
  | error e => simp [bind, Except.bind]
  | ok found =>
      cases found with
      | directory place => simp [bind, Except.bind, throw, throwThe, MonadExceptOf.throw]
      | entry directory name =>
          simp only [bind, Except.bind, throw, throwThe, MonadExceptOf.throw, pure, Except.pure]
          cases hlook : disk.look directory name with
          | error e => cases path.isSlashed <;> simp [and_assoc, hlook]
          | ok entry =>
              cases entry with
              | none => cases path.isSlashed <;> simp [and_assoc, hlook, eq_comm]
              | some entry =>
                  cases entry <;> cases path.isSlashed <;> simp [and_assoc, hlook, eq_comm]

theorem makeDirectory_eq_ok : disk.makeDirectory path = .ok later ↔
    ∃ directory name, disk.target path = .ok (.entry directory name) ∧
      disk.look directory name = .ok none ∧
      later = disk.put (directory.child name) .directory := by
  unfold makeDirectory
  cases disk.target path with
  | error e => simp [bind, Except.bind]
  | ok found =>
      cases found with
      | directory place => simp [bind, Except.bind, throw, throwThe, MonadExceptOf.throw]
      | entry directory name =>
          simp only [bind, Except.bind, throw, throwThe, MonadExceptOf.throw, pure, Except.pure]
          cases hlook : disk.look directory name with
          | error e => simp [and_assoc, hlook]
          | ok entry => cases entry <;> simp [and_assoc, hlook, eq_comm]

/-- A file that can be read is at the place that its path leads to. -/
theorem get?_of_readBytes (h : disk.readBytes path = .ok bytes) :
    disk.get? (path.place disk.working) = some (.file bytes) := by
  obtain ⟨directory, name, htarget, hlook, -⟩ := readBytes_eq_ok.1 h
  rw [← child_of_target htarget]
  exact (look_eq_ok.1 hlook).2.symm

/-! ## Growth -/

/-- What is there once an entry was put is that entry, or was there before. -/
theorem eq_or_get?_of_get?_put {changed : Location} {entry found : Entry}
    (h : (disk.put changed entry).get? place = some found) :
    place = changed ∧ found = entry ∨ disk.get? place = some found := by
  by_cases hplace : place = changed
  · subst hplace
    by_cases hleads : place.LeadsTo disk.working
    · have hafter : (disk.put place entry).get? place = some .directory := get?_of_leadsTo hleads
      rw [hafter] at h
      exact Or.inr ((get?_of_leadsTo hleads).trans h)
    · rw [get?_put_self _ hleads] at h
      exact Or.inl ⟨rfl, (Option.some.inj h).symm⟩
  · rw [get?_put_of_ne _ hplace] at h
    exact Or.inr h

/-- One disk grows into another: directories are made where nothing was, and files are written where
no directory is. The places and the bytes are restricted to some. -/
inductive Grows (made : Location → Prop) (written : Location → ByteArray → Prop) (disk : Disk) :
    Disk → Prop
  | refl : Grows made written disk disk
  | directory {later : Disk} {place : Location} (before : Grows made written disk later)
      (hmade : made place) (hnew : later.get? place = none) :
      Grows made written disk (later.put place .directory)
  | file {later : Disk} {place : Location} {bytes : ByteArray}
      (before : Grows made written disk later) (hwritten : written place bytes)
      (hfile : later.get? place ≠ some .directory) :
      Grows made written disk (later.put place (.file bytes))

namespace Grows

variable {made made' : Location → Prop} {written written' : Location → ByteArray → Prop}

theorem trans {last : Disk} (h : disk.Grows made written later)
    (h' : later.Grows made written last) : disk.Grows made written last := by
  induction h' with
  | refl => exact h
  | directory _ hmade hnew ih => exact ih.directory hmade hnew
  | file _ hwritten hfile ih => exact ih.file hwritten hfile

theorem mono (hmade : ∀ place, made place → made' place)
    (hwritten : ∀ place bytes, written place bytes → written' place bytes)
    (h : disk.Grows made written later) : disk.Grows made' written' later := by
  induction h with
  | refl => exact .refl
  | directory _ hplace hnew ih => exact ih.directory (hmade _ hplace) hnew
  | file _ hplace hfile ih => exact ih.file (hwritten _ _ hplace) hfile

theorem working_eq (h : disk.Grows made written later) : later.working = disk.working := by
  induction h with
  | refl => rfl
  | directory _ _ _ ih => exact ih
  | file _ _ _ ih => exact ih

/-- What was there stays there, unless it is a file that is written. -/
theorem get? (h : disk.Grows made written later) {entry : Entry}
    (hentry : disk.get? place = some entry)
    (hkept : entry = .directory ∨ ∀ bytes, ¬ written place bytes) :
    later.get? place = some entry := by
  induction h with
  | refl => exact hentry
  | directory _ _ hnew ih =>
      rw [get?_put_of_ne _ _ _, ih]
      rintro rfl
      rw [ih] at hnew
      cases hnew
  | file _ hwritten hfile ih =>
      rw [get?_put_of_ne _ _ _, ih]
      rintro rfl
      rcases hkept with rfl | hkept
      · exact hfile ih
      · exact hkept _ hwritten

/-- What is there was there before, or is a directory that was made or a file that was written. -/
theorem origin (h : disk.Grows made written later) {entry : Entry}
    (hentry : later.get? place = some entry) : disk.get? place = some entry ∨
      (entry = .directory ∧ made place) ∨ ∃ bytes, entry = .file bytes ∧ written place bytes := by
  induction h with
  | refl => exact Or.inl hentry
  | directory _ hmade _ ih =>
      rcases eq_or_get?_of_get?_put hentry with ⟨rfl, rfl⟩ | hbefore
      · exact Or.inr (Or.inl ⟨rfl, hmade⟩)
      · exact ih hbefore
  | @file _ _ bytes _ hwritten _ ih =>
      rcases eq_or_get?_of_get?_put hentry with ⟨rfl, rfl⟩ | hbefore
      · exact Or.inr (Or.inr ⟨bytes, rfl, hwritten⟩)
      · exact ih hbefore

theorem directories (h : disk.Grows made written later) (place : Location)
    (hdirectory : disk.get? place = some .directory) : later.get? place = some .directory :=
  h.get? hdirectory (Or.inl rfl)

/-- A file stays one, be it written or not. -/
theorem exists_file (h : disk.Grows made written later)
    (hfile : disk.get? place = some (.file bytes)) :
    ∃ kept, later.get? place = some (.file kept) := by
  induction h with
  | refl => exact ⟨bytes, hfile⟩
  | directory _ _ hnew ih =>
      obtain ⟨kept, hkept⟩ := ih
      refine ⟨kept, ?_⟩
      rw [get?_put_of_ne _ _ _, hkept]
      rintro rfl
      rw [hkept] at hnew
      cases hnew
  | @file _ changed bytes _ _ _ ih =>
      obtain ⟨kept, hkept⟩ := ih
      by_cases hplace : place = changed
      · subst hplace
        refine ⟨bytes, get?_put_self _ (not_leadsTo_of_get? ?_) _⟩
        rw [hkept]
        exact fun hdirectory => Entry.noConfusion (Option.some.inj hdirectory)
      · exact ⟨kept, by rw [get?_put_of_ne _ hplace, hkept]⟩

/-- A file that was read, and was not written since, can be read again. -/
theorem readBytes (h : disk.Grows made written later)
    (hkept : ∀ bytes, ¬ written (path.place disk.working) bytes)
    (hread : disk.readBytes path = .ok bytes) :
    later.readBytes path = .ok bytes := by
  obtain ⟨directory, name, htarget, hlook, hslashed⟩ := readBytes_eq_ok.1 hread
  obtain ⟨hsize, hentry⟩ := look_eq_ok.1 hlook
  rw [← child_of_target htarget] at hkept
  exact readBytes_eq_ok.2 ⟨directory, name, target_mono h.working_eq h.directories htarget,
    look_eq_ok.2 ⟨hsize, (h.get? hentry.symm (Or.inr hkept)).symm⟩, hslashed⟩

/-- A file that can be read was there before, or was written. -/
theorem origin_of_readBytes (h : disk.Grows made written later)
    (hread : later.readBytes path = .ok bytes) :
    disk.get? (path.place disk.working) = some (.file bytes) ∨
      written (path.place disk.working) bytes := by
  have hfile := get?_of_readBytes hread
  rw [h.working_eq] at hfile
  rcases h.origin hfile with hbefore | ⟨hdirectory, -⟩ | ⟨others, heq, hwritten⟩
  · exact Or.inl hbefore
  · cases hdirectory
  · obtain rfl := Entry.file.inj heq
    exact Or.inr hwritten

end Grows

/-- What is written is read. -/
theorem readBytes_of_writeBytes (h : disk.writeBytes path bytes = .ok later) :
    later.readBytes path = .ok bytes := by
  obtain ⟨directory, name, entry, htarget, hslashed, hlook, hentry, rfl⟩ := writeBytes_eq_ok.1 h
  obtain ⟨hsize, rfl⟩ := look_eq_ok.1 hlook
  have hgrows : disk.Grows (fun _ => True) (fun _ _ => True)
      (disk.put (directory.child name) (.file bytes)) := .file .refl trivial hentry
  have hwritten := get?_put_self disk (not_leadsTo_of_get? hentry) (.file bytes)
  exact readBytes_eq_ok.2 ⟨directory, name,
    target_mono hgrows.working_eq hgrows.directories htarget,
    look_eq_ok.2 ⟨hsize, hwritten.symm⟩, hslashed⟩

theorem grows_of_writeBytes (h : disk.writeBytes path bytes = .ok later) :
    disk.Grows (fun _ => False)
      (fun place written => place = path.place disk.working ∧ written = bytes) later := by
  obtain ⟨directory, name, entry, htarget, -, hlook, hentry, rfl⟩ := writeBytes_eq_ok.1 h
  obtain ⟨-, rfl⟩ := look_eq_ok.1 hlook
  exact .file .refl ⟨child_of_target htarget, rfl⟩ hentry

/-- A disk grows by directories alone, which some paths lead to. -/
def GrowsAlong (paths : List Path) (disk later : Disk) : Prop :=
  disk.Grows (fun place => ∃ path ∈ paths, place = path.place disk.working) (fun _ _ => False)
    later

theorem GrowsAlong.mono {paths others : List Path} (h : disk.GrowsAlong paths later)
    (hpaths : paths ⊆ others) : disk.GrowsAlong others later :=
  Grows.mono (fun _ ⟨path, hpath, hplace⟩ => ⟨path, hpaths hpath, hplace⟩) (fun _ _ => id) h

theorem GrowsAlong.trans {paths : List Path} {last : Disk} (h : disk.GrowsAlong paths later)
    (h' : later.GrowsAlong paths last) : disk.GrowsAlong paths last := by
  unfold GrowsAlong at h'
  rw [h.working_eq] at h'
  exact Grows.trans h h'

theorem growsAlong_of_makeDirectory (outer : List Path)
    (h : disk.makeDirectory path = .ok later) : disk.GrowsAlong (path :: outer) later := by
  obtain ⟨directory, name, htarget, hlook, rfl⟩ := makeDirectory_eq_ok.1 h
  obtain ⟨-, hnew⟩ := look_eq_ok.1 hlook
  exact .directory .refl ⟨path, List.mem_cons_self, child_of_target htarget⟩ hnew.symm

/-- Whether or not all directories could be made, those that were are some of these. -/
theorem growsAlong_makeDirectories (disk : Disk) (paths : List Path) :
    disk.GrowsAlong paths (disk.makeDirectories paths).2 := by
  fun_induction Disk.makeDirectories disk paths with
  | case1 => exact .refl
  | case2 first outer made hmade => exact growsAlong_of_makeDirectory outer hmade
  | case3 first outer _ e made hmade ih =>
      rw [hmade] at ih
      exact ih.mono (List.subset_cons_self _ _)
  | case4 first outer _ middle hmiddle made hmade ih =>
      -- The directory could be made once those around it were.
      rw [hmiddle] at ih
      exact (ih.mono (List.subset_cons_self _ _)).trans (growsAlong_of_makeDirectory outer hmade)
  | case5 first outer _ middle hmiddle e _ ih =>
      rw [hmiddle] at ih
      exact ih.mono (List.subset_cons_self _ _)
  | case6 => exact .refl

end Disk

end TreeSmith

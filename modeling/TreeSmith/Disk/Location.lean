/-!
# TreeSmith.Disk.Location

**Where an entry of a disk is.** A place is told by the names that lead down to it from the root.
Every place has these names once, so two paths lead to the same entry if and only if they lead to
the same names, wherever they start from.
-/

namespace TreeSmith

/-- Where an entry is: the names that lead to it from the root. -/
structure Location where
  names : List String
  deriving DecidableEq, Repr

namespace Location

/-- The root. -/
def root : Location := ⟨[]⟩

/-- The entry of that name in a directory. -/
def child (place : Location) (name : String) : Location :=
  ⟨place.names ++ [name]⟩

/-- The directory that a place is in. The root is in itself. -/
def parent (place : Location) : Location :=
  ⟨place.names.dropLast⟩

/-- The place is the other one, or a directory on the way down to it. -/
def LeadsTo (place other : Location) : Prop :=
  place.names <+: other.names

instance (place other : Location) : Decidable (place.LeadsTo other) :=
  inferInstanceAs (Decidable (place.names <+: other.names))

@[simp] theorem names_child (place : Location) (name : String) :
    (place.child name).names = place.names ++ [name] := rfl

@[simp] theorem parent_child (place : Location) (name : String) :
    (place.child name).parent = place := by
  rw [parent, names_child, List.dropLast_concat]

theorem leadsTo_refl (place : Location) : place.LeadsTo place := List.prefix_rfl

theorem root_leadsTo (place : Location) : root.LeadsTo place := List.nil_prefix

theorem LeadsTo.of_child {place other : Location} {name : String}
    (h : (place.child name).LeadsTo other) : place.LeadsTo other :=
  (List.prefix_append _ _).trans h

end Location

end TreeSmith

import TreeSmith.Config
import TreeSmith.Generation.Error
import TreeSmith.Java.Identifier

/-!
# TreeSmith.Generation.NameTable

**The names of node types that a pass has claimed.** A name can be claimed once, if it is an
identifier and belongs to none of the classes that are generated for every grammar. Of two
reasons to refuse a name the first in this order is given: no identifier, reserved, taken.
-/

namespace TreeSmith

/-- The names of the classes that are generated for every grammar. -/
def Config.reservedNames (config : Config) : List String :=
  config.supportNames ++
    [config.nodeInterface, config.retArguVisitor, config.retVisitor, config.voidArguVisitor,
      config.voidVisitor, depthFirstName]

/-- The names claimed so far, and those that never can be. -/
structure NameTable where
  reserved : List String
  names : List String
  deriving Repr

namespace NameTable

/-- No name is claimed yet. -/
def empty (config : Config) : NameTable :=
  ⟨config.reservedNames, []⟩

/-- Has the name been claimed? -/
def contains (table : NameTable) (name : String) : Bool :=
  table.names.contains name

/-- Claims a name. -/
def register (table : NameTable) (name : String) : Except GenerationError NameTable :=
  if !Java.isIdentifier name then .error (.invalidName name)
  else if table.reserved.contains name then .error (.reservedName name)
  else if table.contains name then .error (.nameCollision name)
  else .ok { table with names := name :: table.names }

end NameTable

end TreeSmith

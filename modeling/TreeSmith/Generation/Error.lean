/-!
# TreeSmith.Generation.Error

**Why a pass can fail.** Every failure is about a name: of a node type, or of a production that is
referred to.
-/

namespace TreeSmith

/-- Why no output is generated. -/
inductive GenerationError where
  /-- Two productions have this node type. -/
  | nameCollision (name : String)
  /-- The name of a node type is no identifier. -/
  | invalidName (name : String)
  /-- The name of a node type belongs to a class that is always generated. -/
  | reservedName (name : String)
  /-- A production refers to a name that no production has. -/
  | undefinedProduction (name referencedFrom : String)
  deriving DecidableEq, Repr

/-- The wording of an error. -/
def GenerationError.message : GenerationError → String
  | nameCollision name =>
    "node type `" ++ name ++ "` is generated by more than one production"
  | invalidName name => "`" ++ name ++ "` is not a valid identifier"
  | reservedName name => "`" ++ name ++ "` is reserved for a support type"
  | undefinedProduction name referencedFrom =>
    "production `" ++ referencedFrom ++ "` refers to undefined production `" ++ name ++ "`"

end TreeSmith

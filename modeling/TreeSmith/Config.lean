/-!
# TreeSmith.Config

**The settings of one generation pass**, fixed before it starts. Strings are used as they are
given: they may be empty, clash with each other, or be no identifiers at all.
-/

namespace TreeSmith

/-- The settings of a generation pass. -/
structure Config where
  /-- Written before the name of every node type. -/
  namePrefix : String := ""
  /-- Written behind the name of every node type. -/
  nameSuffix : String := ""
  /-- Gives every node a pointer to its parent, which its constructors keep up to date. -/
  parentPointer : Bool := false
  /-- Writes documentation comments. -/
  javadocComments : Bool := false
  /-- Adds to every comment line the part it belongs to and where it was written. -/
  debugComments : Bool := false
  /-- Keeps the comments of sub-parts, and writes comments into the bodies of the depth-first
  visitor in place of its documentation. -/
  inlineAcceptMethods : Bool := false
  /-- Lets the visitors with an argument take any number of them. -/
  variadicArgs : Bool := false
  nodeInterface : String := "INode"
  nodesSuperclass : Option String := none
  /-- The class of tokens. -/
  nodeToken : String := "NodeToken"
  retArguVisitor : String := "IRetArguVisitor"
  retVisitor : String := "IRetVisitor"
  voidArguVisitor : String := "IVoidArguVisitor"
  voidVisitor : String := "IVoidVisitor"
  /-- The type parameter for what a visitor returns. -/
  retType : String := "R"
  /-- The type parameter for the argument of a visitor. -/
  arguType : String := "A"
  serialUid : Nat := 148
  indentAmount : Nat := 2
  nodesPackage : Option String := none
  visitorPackage : Option String := none
  deriving DecidableEq, Repr, Inhabited

/-- The name of the visitor that walks the whole tree. -/
def depthFirstName : String := "DepthFirstVoidVisitor"

namespace Config

/-- The names of the support classes, in the order in which visitors declare them. -/
def supportNames (config : Config) : List String :=
  ["NodeChoice", "NodeList", "NodeListOptional", "NodeOptional", "NodeSequence", config.nodeToken]

/-- The declaration of the user argument, such as `final A argu`. -/
def argument (config : Config) : String :=
  "final " ++ config.arguType ++ (if config.variadicArgs then "... argu" else " argu")

/-- The name of the node type of a production. -/
def typeName (config : Config) (name : String) : String :=
  config.namePrefix ++ name ++ config.nameSuffix

end Config

end TreeSmith

import TreeSmith.Code
import TreeSmith.Visitor.Flavor

/-!
# TreeSmith.NodeType.Dispatch

**The end of every node class**: an `accept` for each flavor, the accessors of the parent if there
is a pointer to it, and the brace that closes the class. It depends on the settings alone, so one
copy serves all classes of a pass.

The node interface declares the same methods (`nodeInterface`).
-/

namespace TreeSmith

namespace Flavor

/-- The documentation of an `accept`. -/
def acceptDoc (config : Config) (indent : Indent) (flavor : Flavor) : Code :=
  indent.doc ("Accepts the \x7b@link " ++ flavor.name config ++ "\x7d visitor.") <|
    (if flavor.returns then ["@param <" ++ config.retType ++ "> - the user return type"]
      else []) ++
    (if flavor.takesArgument then ["@param <" ++ config.arguType ++ "> - the user argument type"]
      else []) ++
    ["@param vis - the visitor"] ++
    (if flavor.takesArgument then
      ["@param argu - " ++
        if config.variadicArgs then "the user arguments" else "a user chosen argument"]
      else []) ++
    (if flavor.returns then ["@return a user chosen return information"] else [])

/-- The `accept` of a flavor. -/
def acceptMethod (config : Config) (flavor : Flavor) : Code :=
  let indent := Indent.ofLevel config.indentAmount 1
  let body := Indent.ofLevel config.indentAmount 2
  codeIf config.javadocComments (flavor.acceptDoc config indent) ++
    indent.line "@Override" ::
    indent.member ("public " ++ flavor.acceptSignature config) [body.line flavor.forward]

end Flavor

/-- The method that sets the parent. -/
def setParentSignature (config : Config) : String :=
  "void setParent(final " ++ config.nodeInterface ++ " n)"

/-- The method that gets the parent. -/
def getParentSignature (config : Config) : String :=
  config.nodeInterface ++ " getParent()"

/-- The accessors of the parent. -/
def parentAccessors (config : Config) : Code :=
  let indent := Indent.ofLevel config.indentAmount 1
  let body := Indent.ofLevel config.indentAmount 2
  codeIf config.javadocComments
      (indent.doc "Sets the parent node." ["@param n - the parent node"]) ++
    indent.line "@Override" ::
    indent.member ("public " ++ setParentSignature config) [body.line "parent = n;"] ++
  codeIf config.javadocComments
      (indent.doc "Gets the parent node." ["@return the parent node"]) ++
    indent.line "@Override" ::
    indent.member ("public " ++ getParentSignature config) [body.line "return parent;"]

/-- The end of every node class. -/
def dispatchCode (config : Config) : Code :=
  Flavor.all.flatMap (Flavor.acceptMethod config) ++
    codeIf config.parentPointer (parentAccessors config) ++
    [(Indent.ofLevel config.indentAmount 0).closing]

/-- The signatures that the node interface declares. -/
def interfaceSignatures (config : Config) : List String :=
  Flavor.all.map (Flavor.acceptSignature config) ++
    if config.parentPointer then [setParentSignature config, getParentSignature config] else []

/-- The interface of all nodes. -/
def nodeInterface (config : Config) : Code :=
  let outer := Indent.ofLevel config.indentAmount 0
  let indent := Indent.ofLevel config.indentAmount 1
  outer.opening ("public interface " ++ config.nodeInterface) :: emptyLine ::
    (interfaceSignatures config).flatMap
      (fun signature => indent.paragraph ("public " ++ signature ++ ";")) ++
    [outer.closing]

end TreeSmith

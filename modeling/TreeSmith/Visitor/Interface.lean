import TreeSmith.NodeType.Descriptor
import TreeSmith.Visitor.Flavor

/-!
# TreeSmith.Visitor.Interface

**The four visitor interfaces.** Each declares a visit of every support class and then one of
every node type, in their order, documented with the comments of the grammar.
-/

namespace TreeSmith

namespace Flavor

/-- The documentation of a visit of `node`, with lines about its fields. -/
def visitDocAround (config : Config) (flavor : Flavor) (indent : Indent) (node : String)
    (fieldLines : Code) : Code :=
  indent.docAround <|
    indent.docLine ("Visits a \x7b@link " ++ node ++ "\x7d node.") :: fieldLines ++
      [indent.docGap, indent.docLine "@param n - the node to visit"] ++
      codeIf flavor.takesArgument
        [indent.docLine ("@param argu - " ++
          if config.variadicArgs then "the user arguments" else "the user argument")] ++
      codeIf flavor.returns [indent.docLine "@return the user return information"]

/-- The documentation of a visit of a support class. -/
def supportVisitDoc (config : Config) (flavor : Flavor) (indent : Indent) (node : String) :
    Code :=
  codeIf config.javadocComments (flavor.visitDocAround config indent node [])

/-- The documentation of a visit of a node type. Its comments are shown unless `bare`. -/
def visitDoc (commentary : Commentary) (config : Config) (flavor : Flavor) (indent : Indent)
    (bare : Bool) : Ask Code := do
  if config.javadocComments then
    let node := (← get).nodeType.name
    let lines ← if bare then pure [] else Ask.fieldDocs commentary indent
    return flavor.visitDocAround config indent node lines
  else return []

/-- The declaration of a visit. -/
def visitDeclaration (config : Config) (flavor : Flavor) (indent : Indent) (node : String) :
    Code :=
  indent.paragraph ("public " ++ flavor.visitSignature config node ++ ";")

/-- The visitor interface of a flavor. -/
def interfaceCode (commentary : Commentary) (config : Config) (flavor : Flavor)
    (descriptors : List Descriptor) : Pass (Code × List Descriptor) := do
  let outer := Indent.ofLevel config.indentAmount 0
  let indent := Indent.ofLevel config.indentAmount 1
  let supports := config.supportNames.flatMap fun node =>
    flavor.supportVisitDoc config indent node ++ flavor.visitDeclaration config indent node
  let (nodes, descriptors) ← askEach (do
      let doc ← flavor.visitDoc commentary config indent false
      return doc ++ flavor.visitDeclaration config indent (← get).nodeType.name) descriptors
  let code :=
    outer.opening ("public interface " ++ flavor.genericName config) :: emptyLine ::
      supports ++ nodes.flatten ++ [outer.closing]
  return (code, descriptors)

end Flavor

end TreeSmith

import TreeSmith.Generation.NameTable
import TreeSmith.Generation.References
import TreeSmith.NodeType.Declaration
import TreeSmith.Support
import TreeSmith.Visitor.DepthFirst

/-!
# TreeSmith.Generation.Pass

**A full pass over a grammar.** Every production becomes a node type, then all names are checked,
and only then is anything written: node types, the node interface, the support classes, the four
visitor interfaces, and the depth-first visitor.

Design points:

* `firstProblem?` decides whether a pass succeeds, before anything is generated. Names of node
  types come before references, and both come in the order of the grammar.
* A failed pass reports its error once, as a diagnostic at the place that the error is about. A
  successful pass reports no diagnostic.
* The units are written in one `Pass`, with one descriptor for every production, so that each
  production is walked for its comments at most once.
-/

namespace TreeSmith

/-- A generated file, by the name of the class or interface in it. -/
structure CompilationUnit where
  name : String
  text : String
  deriving DecidableEq, Repr

/-- All that a pass generates. -/
structure Output where
  /-- One for every production, in the order of the grammar. -/
  nodeTypes : List CompilationUnit
  nodeInterface : CompilationUnit
  supportClasses : List CompilationUnit
  /-- The four interfaces, then the depth-first visitor. -/
  visitors : List CompilationUnit
  deriving DecidableEq, Repr

/-- The outcome of a pass, with the problems that were reported. -/
structure Generation where
  outcome : Except GenerationError Output
  diagnostics : List Diagnostic

/-! ## Checks -/

/-- The first node type whose name cannot be claimed. -/
def nameProblem? (table : NameTable) : List NodeType → Option (GenerationError × Span)
  | [] => none
  | nodeType :: rest =>
    match table.register nodeType.name with
    | .ok table => nameProblem? table rest
    | .error e => some (e, nodeType.production.span)

/-- The first reference to a name that no production has. -/
def referenceProblem? (grammar : Grammar) : Option (GenerationError × Span) :=
  grammar.productions.findSome? fun production =>
    (grammar.danglingReference? production).map fun reference =>
      (.undefinedProduction reference.name production.name, reference.span)

/-- The first problem of a grammar, and the place that it is about. -/
def firstProblem? (config : Config) (grammar : Grammar) (nodeTypes : List NodeType) :
    Option (GenerationError × Span) :=
  (nameProblem? (.empty config) nodeTypes).or (referenceProblem? grammar)

/-! ## Units -/

/-- The file of a node type. -/
def nodeTypeUnit (commentary : Commentary) (config : Config) : Ask CompilationUnit := do
  let code ← Ask.declaration commentary config
  let name := (← get).nodeType.name
  StateT.lift (Pass.report (.generatedNodeType name))
  return ⟨name, renderCode code⟩

/-- The files of visitor interfaces. -/
def interfaceUnits (commentary : Commentary) (config : Config) :
    List Flavor → List Descriptor → Pass (List CompilationUnit × List Descriptor)
  | [], descriptors => return ([], descriptors)
  | flavor :: flavors, descriptors => do
    let (code, descriptors) ← flavor.interfaceCode commentary config descriptors
    let name := flavor.name config
    Pass.report (.generatedVisitor name)
    let (units, descriptors) ← interfaceUnits commentary config flavors descriptors
    return (⟨name, renderCode code⟩ :: units, descriptors)

/-- The file of the node interface. -/
def nodeInterfaceUnit (config : Config) : CompilationUnit :=
  ⟨config.nodeInterface, renderCode (nodeInterface config)⟩

/-- The files of the support classes. -/
def supportUnits (config : Config) : List CompilationUnit :=
  SupportClass.all.map fun support => ⟨support.name config, renderCode (support.code config)⟩

/-- All files of a pass. -/
def generateUnits (config : Config) (comments : List Comment) (nodeTypes : List NodeType) :
    Pass Output := do
  let commentary : Commentary := ⟨comments, config⟩
  let descriptors := nodeTypes.map Descriptor.ofNodeType
  let (nodeUnits, descriptors) ← askEach (nodeTypeUnit commentary config) descriptors
  let (interfaces, descriptors) ←
    interfaceUnits commentary config Flavor.all descriptors
  let (depthFirst, _) ← depthFirstCode commentary config descriptors
  let visitors := interfaces ++ [⟨depthFirstName, renderCode depthFirst⟩]
  Pass.report (.generated nodeUnits.length visitors.length (← get))
  return {
    nodeTypes := nodeUnits
    nodeInterface := nodeInterfaceUnit config
    supportClasses := supportUnits config
    visitors := visitors }

/-- A full pass over a grammar. -/
def generate (config : Config) (grammar : Grammar) : Logged Generation := do
  let nodeTypes ← grammar.productions.mapM (NodeType.lowerLogged config)
  match firstProblem? config grammar nodeTypes with
  | some (e, span) =>
    let diagnostic : Diagnostic := ⟨.error, e.message, some span⟩
    Logged.report (.diagnostic diagnostic)
    return ⟨.error e, [diagnostic]⟩
  | none =>
    let (output, _) ← (generateUnits config grammar.comments nodeTypes).run 0
    return ⟨.ok output, []⟩

end TreeSmith

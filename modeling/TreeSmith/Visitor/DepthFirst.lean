import TreeSmith.Text.Blank
import TreeSmith.Visitor.Interface

/-!
# TreeSmith.Visitor.DepthFirst

**The visitor that walks the whole tree**: it visits every child of every node, and does nothing
else.

Design points:

* A support class is told by its name. The token class has a name of the user's choice; if that
  is the name of another support class, tokens are walked like that class.
* The visit of a node type goes through its fields in order. In front of the visit of a field
  come the comments of the field and of its sub-parts, if they are wanted here, and then the
  user's code for it, one trimmed line at a time.
-/

namespace TreeSmith

/-- The body of the visit of a support class. Tokens are leaves. -/
def supportVisitBody (config : Config) (name : String) : Code :=
  let body := Indent.ofLevel config.indentAmount 2
  let inner := Indent.ofLevel config.indentAmount 3
  let deepest := Indent.ofLevel config.indentAmount 4
  let each := "for (final " ++ config.nodeInterface ++ " e : n.nodes)"
  if name = "NodeChoice" then [body.line "n.choice.accept(this);"]
  else if name = "NodeList" ∨ name = "NodeSequence" then
    [body.opening each, inner.line "e.accept(this);", body.closing]
  else if name = "NodeListOptional" then
    [body.opening "if (n.present())", inner.opening each, deepest.line "e.accept(this);",
      inner.closing, body.closing]
  else if name = "NodeOptional" then
    [body.opening "if (n.present())", inner.line "n.node.accept(this);", body.closing]
  else []

/-- The user's code for a field. -/
def userCode (indent : Indent) (field : Field) : Code :=
  match field.code with
  | some code => (Text.trimmedLines code).map indent.line
  | none => []

/-- The visit of a field. -/
def fieldVisit (indent : Indent) (field : Field) : CodeLine :=
  indent.line ("n." ++ field.name ++ ".accept(this);")

namespace Ask

/-- The comments of the sub-parts with these numbers, as code comments. -/
def subComments (commentary : Commentary) (config : Config) (indent : Indent) :
    List Nat → Ask Code
  | [] => return []
  | k :: ks => do
    let code ← subComment commentary config indent k (some ("s" ++ toString k))
    return code ++ (← subComments commentary config indent ks)

/-- The comments of field `i` and of its sub-parts, as code comments. -/
def inlineComments (commentary : Commentary) (config : Config) (indent : Indent) (i : Nat)
    (field : Field) : Option Annotations → Ask Code
  | none => return []
  | some known => do
    let own ← fieldComment commentary config indent i (some field.name)
    let subs ← subComments commentary config indent ((known.subsOf i).map Prod.fst)
    return own ++ subs

/-- The visits of fields, the one at the head being number `i`. -/
def fieldVisits (commentary : Commentary) (config : Config) (indent : Indent)
    (known : Option Annotations) (i : Nat) : List Field → Ask Code
  | [] => return []
  | field :: fields => do
    let comments ← inlineComments commentary config indent i field known
    let rest ← fieldVisits commentary config indent known (i + 1) fields
    return comments ++ userCode indent field ++ fieldVisit indent field :: rest

/-- The body of the visit of a node type. -/
def visitBody (commentary : Commentary) (config : Config) (indent : Indent) : Ask Code := do
  let fields := (← get).nodeType.fields
  let known ← if config.inlineAcceptMethods then annotations commentary else pure none
  fieldVisits commentary config indent known 0 fields

end Ask

/-- A method of the depth-first visitor. -/
def depthFirstMethod (config : Config) (indent : Indent) (node : String) (body : Code) : Code :=
  indent.line "@Override" ::
    indent.member ("public " ++ Flavor.void.visitSignature config node) body

/-- The depth-first visitor. -/
def depthFirstCode (commentary : Commentary) (config : Config) (descriptors : List Descriptor) :
    Pass (Code × List Descriptor) := do
  let outer := Indent.ofLevel config.indentAmount 0
  let indent := Indent.ofLevel config.indentAmount 1
  let supports := config.supportNames.flatMap fun node =>
    Flavor.void.supportVisitDoc config indent node ++
      depthFirstMethod config indent node (supportVisitBody config node)
  let (nodes, descriptors) ← askEach (do
      let doc ← Flavor.void.visitDoc commentary config indent config.inlineAcceptMethods
      let body ← Ask.visitBody commentary config (indent.move 1)
      return doc ++ depthFirstMethod config indent (← get).nodeType.name body) descriptors
  let code :=
    outer.opening ("public class " ++ depthFirstName ++ " implements " ++
        Flavor.void.name config) :: emptyLine ::
      supports ++ nodes.flatten ++ [outer.closing]
  return (code, descriptors)

end TreeSmith

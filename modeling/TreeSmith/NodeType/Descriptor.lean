import TreeSmith.Code
import TreeSmith.Comments.Annotations
import TreeSmith.NodeType.Basic

/-!
# TreeSmith.NodeType.Descriptor

**A node type with what has been found out about its comments.** Finding the owners of all
comments of a production takes a walk over it, and many places ask for them, so a descriptor
remembers the answer. It also remembers the documentation lines that all visitors share.

Design points:

* `Pass` counts the walks of a pass and collects its events. `Ask` is a request to one
  descriptor in the course of a pass, which may leave the descriptor knowing more.
* A walk is counted when it is made, so that the count says how often the answer was not yet
  known. A production that is code alone has nothing to walk.
* Visitors ask for documentation at level one, always the same lines. The first ones that were
  asked for at that level are remembered as they are, and given to everyone who asks at that
  level from then on.
-/

namespace TreeSmith

/-- A pass: the state is the number of walks so far. -/
abbrev Pass := StateT Nat Logged

/-- A node type with what is known about its comments. -/
structure Descriptor where
  nodeType : NodeType
  /-- The comments by their owners, once they have been asked for. -/
  annotations : Option (Option Annotations)
  /-- The documentation lines of visitor methods, once they have been asked for. -/
  visitDoc : Option Code
  deriving Inhabited

/-- Nothing is known yet. -/
def Descriptor.ofNodeType (nodeType : NodeType) : Descriptor :=
  ⟨nodeType, none, none⟩

/-- A request to one descriptor. -/
abbrev Ask := StateT Descriptor Pass

/-- Reports an event in the course of a pass. -/
def Pass.report (event : Event) : Pass Unit :=
  StateT.lift (Logged.report event)

/-- Walks a production to find the owners of its comments. -/
def Commentary.walk (commentary : Commentary) (production : Production) :
    Pass (Option Annotations) := do
  let found := commentary.annotate production
  if found.isSome then modify (· + 1)
  return found

namespace Ask

/-- The comments of the production by their owners. -/
def annotations (commentary : Commentary) : Ask (Option Annotations) := do
  let descriptor ← get
  match descriptor.annotations with
  | some known => return known
  | none =>
    let found ← StateT.lift (commentary.walk descriptor.nodeType.production)
    set { descriptor with annotations := some found }
    return found

/-! ## Documentation lines -/

/-- Documentation lines of the comments of all fields. -/
def docLines (indent : Indent) (annotations : Annotations) : Code :=
  annotations.fields.flatten.map fun line => indent.docLine (line.bare ++ line.debug.getD "")

/-- Documentation lines of the comments of all fields, as far as the production has any. -/
def freshFieldDocs (commentary : Commentary) (indent : Indent) : Ask Code := do
  match ← annotations commentary with
  | some known => return docLines indent known
  | none => return []

/-- Documentation lines of the comments of all fields, remembered at level one. -/
def fieldDocs (commentary : Commentary) (indent : Indent) : Ask Code := do
  if indent.level = 1 then
    match (← get).visitDoc with
    | some known => return known
    | none =>
      let lines ← freshFieldDocs commentary indent
      modify fun descriptor => { descriptor with visitDoc := some lines }
      return lines
  else freshFieldDocs commentary indent

/-! ## Code comments -/

/-- What follows a comment line: an extra note, after a semicolon. -/
def noteText : Option String → String
  | some extra => " ; " ++ extra
  | none => ""

/-- A block as code comments. The extra note is shown with debug comments only. -/
def codeComments (config : Config) (indent : Indent) (extra : Option String)
    (block : CommentBlock) : Code :=
  block.map fun line =>
    indent.line ("// " ++ line.bare ++ if config.debugComments then noteText extra else "")

/-- The comments of field `i` as code comments. -/
def fieldComment (commentary : Commentary) (config : Config) (indent : Indent) (i : Nat)
    (extra : Option String) : Ask Code := do
  match (← annotations commentary).bind (·.fields[i]?) with
  | some block => return codeComments config indent extra block
  | none => return []

/-- The comments of sub-part `k` as code comments. If there is no such sub-part, that is reported
and noted in the code. -/
def subComment (commentary : Commentary) (config : Config) (indent : Indent) (k : Nat)
    (extra : Option String) : Ask Code := do
  match (← annotations commentary).bind (·.subs) with
  | none => return []
  | some subs =>
    match subs[k]? with
    | some sub => return codeComments config indent extra sub.block
    | none =>
      StateT.lift (Pass.report (.badSubPart (← get).nodeType.name k subs.length))
      return [indent.line
        ("// " ++ Event.badSubPartText k subs.length ++ noteText extra)]

end Ask

/-! ## All descriptors of a pass -/

/-- Makes the same request to every descriptor, and lists the answers in their order. -/
def askEach {α : Type} (ask : Ask α) : List Descriptor → Pass (List α × List Descriptor)
  | [] => return ([], [])
  | descriptor :: rest => do
    let (answer, descriptor) ← ask.run descriptor
    let (answers, rest) ← askEach ask rest
    return (answer :: answers, descriptor :: rest)

end TreeSmith

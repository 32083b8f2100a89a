import TreeSmith.Config
import TreeSmith.Event
import TreeSmith.Grammar.Basic
import TreeSmith.Java.Literal

/-!
# TreeSmith.NodeType.Basic

**The node type of a production**: its name and its fields.

A production with alternatives to choose from has a single field for the choice. Any other has
one field for every part, in order. A token with a fixed image can be built by the node itself;
its field has an initial value, and the node type a second constructor that leaves it out.
-/

namespace TreeSmith

/-- A child of a node. -/
structure Field where
  type : String
  name : String
  /-- The expression that the field is set to when no child is given for it. -/
  initial : Option String
  /-- User code that belongs in front of the visit of the field. -/
  code : Option String
  deriving DecidableEq, Repr

/-- Can the node build this child itself? -/
def Field.isInitialized (field : Field) : Bool :=
  field.initial.isSome

/-- What is needed to write the class of a production. -/
structure NodeType where
  production : Production
  name : String
  /-- There are no fields, rather than an empty list of them, if the production is code alone. -/
  fields? : Option (List Field)
  /-- Has a field been added with an initial value? -/
  needsInitializing : Bool
  deriving Inhabited

namespace NodeType

/-- The fields, none if the production is code alone. -/
def fields (nodeType : NodeType) : List Field :=
  nodeType.fields?.getD []

/-- The node type of a production, still without its fields. -/
def ofProduction (config : Config) (production : Production) : NodeType where
  production := production
  name := config.typeName production.name
  fields? := production.choices?.map fun _ => []
  needsInitializing := false

/-- Adds a field behind the others. An empty initial value, and empty code, is none. -/
def addField (nodeType : NodeType) (type name : String) (initial code : Option String) :
    NodeType :=
  let initial := initial.filter (!·.isEmpty)
  let code := code.filter (!·.isEmpty)
  { nodeType with
    fields? := some (nodeType.fields ++ [⟨type, name, initial, code⟩])
    needsInitializing := nodeType.needsInitializing || initial.isSome }

end NodeType

/-! ## From parts to fields -/

/-- The node type that holds a part. -/
def partType (config : Config) : Part → String
  | .terminal .. => config.nodeToken
  | .nonTerminal _ name _ => config.typeName name
  | .composite _ .once choices _ => if isChoice choices then "NodeChoice" else "NodeSequence"
  | .composite _ .optional _ _ => "NodeOptional"
  | .composite _ .zeroOrMore _ _ => "NodeListOptional"
  | .composite _ .oneOrMore _ _ => "NodeList"

/-- The expression that builds a token with a fixed image. -/
def partInitial (config : Config) : Part → Option String
  | .terminal _ image _ =>
    if image.isEmpty then none
    else some ("new " ++ config.nodeToken ++ "(\"" ++ Java.escape image ++ "\")")
  | _ => none

/-- Adds a field for every part, numbered from `i` on. -/
def addParts (config : Config) (nodeType : NodeType) (i : Nat) : List Part → NodeType
  | [] => nodeType
  | part :: parts =>
    let added :=
      nodeType.addField (partType config part) ("f" ++ toString i) (partInitial config part)
        part.code
    addParts config added (i + 1) parts

/-- The node type of a production with all its fields. -/
def NodeType.lower (config : Config) (production : Production) : NodeType :=
  let nodeType := NodeType.ofProduction config production
  match production.body with
  | .code _ => nodeType
  | .choices choices =>
    if isChoice choices then nodeType.addField "NodeChoice" "f0" none none
    else addParts config nodeType 0 choices.flatten

/-- Lowers a production; a production that is code alone is not worth a report. -/
def NodeType.lowerLogged (config : Config) (production : Production) : Logged NodeType := do
  let nodeType := NodeType.lower config production
  if production.choices?.isSome then
    Logged.report (.lowered nodeType.name nodeType.fields.length)
  return nodeType

end TreeSmith

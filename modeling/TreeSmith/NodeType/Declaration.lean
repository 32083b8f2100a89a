import TreeSmith.NodeType.Constructor
import TreeSmith.NodeType.Descriptor

/-!
# TreeSmith.NodeType.Declaration

**The class of a node type**: its heading, its fields with the comments that document them, its
constructors, and the end that all node classes share.
-/

namespace TreeSmith

/-- The documentation of a field; a field without comments has none. -/
def fieldDoc (indent : Indent) (block : CommentBlock) : Code :=
  codeIf (!block.isEmpty) <|
    indent.docAround <| block.map fun line =>
      indent.docLine (line.bare ++ line.debug.getD "")

/-- The declarations of the fields, the one at the head being number `i`. -/
def fieldDeclarations (indent : Indent) (annotations : Option Annotations) (i : Nat) :
    List Field → Code
  | [] => []
  | field :: fields =>
    fieldDoc indent ((annotations.bind (·.fields[i]?)).getD []) ++
      indent.paragraph ("public " ++ field.type ++ " " ++ field.name ++ ";") ++
      fieldDeclarations indent annotations (i + 1) fields

/-- The constructors of a class. -/
def constructors (config : Config) (nodeType : NodeType) : Code :=
  match nodeType.fields? with
  | none => childlessConstructorCode config nodeType.name
  | some fields =>
    constructorCode config nodeType.name fields .full ++
      codeIf nodeType.needsInitializing
        (constructorCode config nodeType.name fields .initializing)

/-- The class of a node type, given its comments. -/
def declarationCode (config : Config) (nodeType : NodeType) (annotations : Option Annotations) :
    Code :=
  let indent := Indent.ofLevel config.indentAmount 1
  (Indent.ofLevel config.indentAmount 0).opening (classHeading config nodeType.name) ::
    emptyLine ::
    fieldDeclarations indent annotations 0 nodeType.fields ++
    parentField config indent ++
    serialField config indent ++
    constructors config nodeType ++
    dispatchCode config

/-- The class of a node type. Comments are asked for only if there are fields to document. -/
def Ask.declaration (commentary : Commentary) (config : Config) : Ask Code := do
  let nodeType := (← get).nodeType
  if config.javadocComments && nodeType.fields?.isSome then
    return declarationCode config nodeType (← annotations commentary)
  else return declarationCode config nodeType none

end TreeSmith

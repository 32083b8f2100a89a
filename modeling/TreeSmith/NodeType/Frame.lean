import TreeSmith.NodeType.Dispatch

/-!
# TreeSmith.NodeType.Frame

**What all node classes have in common** besides their end: the heading, the field for the parent,
the serial version, and the two lines that tell a child who its parent is.
-/

namespace TreeSmith

/-- The heading of a node class. -/
def classHeading (config : Config) (name : String) : String :=
  "public class " ++ name ++
    (match config.nodesSuperclass with
    | some superclass => " extends " ++ superclass
    | none => "") ++
    " implements " ++ config.nodeInterface

/-- A documentation block on one line. -/
def Indent.shortDoc (indent : Indent) (text : String) : CodeLine :=
  indent.line ("/** " ++ text ++ " */")

/-- The field for the parent. -/
def parentField (config : Config) (indent : Indent) : Code :=
  codeIf config.parentPointer <|
    codeIf config.javadocComments [indent.shortDoc "The parent node"] ++
      indent.paragraph ("private " ++ config.nodeInterface ++ " parent;")

/-- The serial version. -/
def serialField (config : Config) (indent : Indent) : Code :=
  codeIf config.javadocComments [indent.shortDoc "The serial version UID"] ++
    indent.paragraph
      ("private static final long serialVersionUID = " ++ toString config.serialUid ++ "L;")

/-- Tells a child that was just stored in `child` who its parent is. -/
def adopt (config : Config) (indent deeper : Indent) (child : String) : Code :=
  codeIf config.parentPointer
    [indent.line ("if (" ++ child ++ " != null)"), deeper.line (child ++ ".setParent(this);")]

end TreeSmith

import TreeSmith.NodeType.Basic
import TreeSmith.NodeType.Frame

/-!
# TreeSmith.NodeType.Constructor

**The constructors of a node type.** One takes all children. If some fields have an initial value,
another takes only the children of the other fields, and sets those to their initial value.

Design points:

* Parameters are numbered without gaps, in the order of the fields that they are for. A field
  that gets no parameter does not use up a number, neither where the parameters are declared
  (`parameters`) nor where they are assigned (`assignments`).
* Both run over the fields with the same counter, so the assignment of a field names the very
  parameter that was declared for it.
-/

namespace TreeSmith

/-- Which of the two constructors is meant. -/
inductive ConstructorKind where
  /-- It takes all children. -/
  | full
  /-- It leaves out the fields with an initial value. -/
  | initializing
  deriving DecidableEq, Repr

/-- Is the child of this field handed to the constructor? -/
def ConstructorKind.takes (kind : ConstructorKind) (field : Field) : Bool :=
  match kind with
  | .full => true
  | .initializing => !field.isInitialized

/-- The name of a parameter. -/
def parameterName (n : Nat) : String :=
  "n" ++ toString n

/-- A parameter of a constructor. -/
structure Parameter where
  type : String
  name : String
  deriving DecidableEq, Repr

/-- A field, and the expression that a constructor sets it to. -/
structure Assignment where
  field : String
  value : String
  deriving DecidableEq, Repr

/-- The parameters for some fields, numbered from `n` on. -/
def parameters (kind : ConstructorKind) (n : Nat) : List Field → List Parameter
  | [] => []
  | field :: fields =>
    if kind.takes field then
      ⟨field.type, parameterName n⟩ :: parameters kind (n + 1) fields
    else parameters kind n fields

/-- The assignments of some fields, where the next parameter is number `n`. -/
def assignments (kind : ConstructorKind) (n : Nat) : List Field → List Assignment
  | [] => []
  | field :: fields =>
    match kind, field.initial with
    | .initializing, some initial => ⟨field.name, initial⟩ :: assignments kind n fields
    | _, _ => ⟨field.name, parameterName n⟩ :: assignments kind (n + 1) fields

/-- The declaration of a parameter. -/
def Parameter.render (parameter : Parameter) : String :=
  "final " ++ parameter.type ++ " " ++ parameter.name

/-- The first line of a constructor's documentation, given the number of fields. -/
def constructorSummary (config : Config) : ConstructorKind → Nat → String
  | .initializing, fields =>
    "Constructs the node with only its non " ++ config.nodeToken ++ " child node" ++
      if 1 < fields then "(s)." else "."
  | .full, 1 => "Constructs the node with its child node."
  | .full, _ => "Constructs the node with all its children nodes."

/-- What a parameter is, given its number and the number of fields. -/
def parameterNote : ConstructorKind → Nat → Nat → String
  | .full, 1, 0 => "the child node"
  | _, _, 0 => "first child node"
  | _, _, _ => "next child node"

/-- A constructor of a class with the given name and fields. -/
def constructorCode (config : Config) (name : String) (fields : List Field)
    (kind : ConstructorKind) : Code :=
  let indent := Indent.ofLevel config.indentAmount 1
  let body := Indent.ofLevel config.indentAmount 2
  let guarded := Indent.ofLevel config.indentAmount 3
  let params := parameters kind 0 fields
  let tags := (List.range params.length).map fun n =>
    "@param " ++ parameterName n ++ " - " ++ parameterNote kind fields.length n
  codeIf config.javadocComments
      (indent.doc (constructorSummary config kind fields.length) tags) ++
    indent.member
      ("public " ++ name ++ "(" ++ ", ".intercalate (params.map Parameter.render) ++ ")")
      ((assignments kind 0 fields).flatMap fun assignment =>
        body.line (assignment.field ++ " = " ++ assignment.value ++ ";") ::
          adopt config body guarded assignment.field)

/-- The constructor of a class for a production that is code alone. -/
def childlessConstructorCode (config : Config) (name : String) : Code :=
  let indent := Indent.ofLevel config.indentAmount 1
  codeIf config.javadocComments
      (indent.docAround [indent.docLine "Constructs the node (which has no child)."]) ++
    indent.member ("public " ++ name ++ "()") []

end TreeSmith

import TreeSmith.Proofs.Generation.Units

/-!
# TreeSmith.Proofs.Code.Classes

**Generated classes by their parts.** The class of a node type is written field by field and
constructor by constructor, and its visit in the depth-first visitor access by access. Here these
parts have names, and each the code that it is written as. What the emitters write is put together
from them (`nodeType_share`, `method_share_eq_code`), so that the parts of a node type can be
compared with each other without a look at the text.
-/

namespace TreeSmith

/-! ## Classes -/

/-- A field as it is declared. -/
structure DeclaredField where
  doc : Code
  type : String
  name : String

/-- A constructor. -/
structure Constructor where
  doc : Code
  parameters : List Parameter
  assigned : List Assignment

/-- The class of a node type. Besides its fields and constructors it has only what all node classes
have. -/
structure NodeClass where
  name : String
  fields : List DeclaredField
  constructors : List Constructor

/-- The declaration of a field, with its documentation. -/
def DeclaredField.code (indent : Indent) (field : DeclaredField) : Code :=
  field.doc ++ indent.paragraph ("public " ++ field.type ++ " " ++ field.name ++ ";")

/-- The statement that assigns a field, and those that tell the child about its parent. -/
def Assignment.code (config : Config) (assignment : Assignment) : Code :=
  let body := Indent.ofLevel config.indentAmount 2
  let guarded := Indent.ofLevel config.indentAmount 3
  body.line (assignment.field ++ " = " ++ assignment.value ++ ";") ::
    adopt config body guarded assignment.field

/-- A constructor of the class with that name, with its documentation. -/
def Constructor.code (config : Config) (name : String) (constructor : Constructor) : Code :=
  constructor.doc ++ (Indent.ofLevel config.indentAmount 1).member
    ("public " ++ name ++ "(" ++ ", ".intercalate (constructor.parameters.map Parameter.render) ++
      ")")
    (constructor.assigned.flatMap (Assignment.code config))

namespace NodeClass

/-- The names of the declared fields, in order. -/
def fieldNames (nodeClass : NodeClass) : List String :=
  nodeClass.fields.map DeclaredField.name

/-- The code of a class. -/
def code (config : Config) (nodeClass : NodeClass) : Code :=
  let indent := Indent.ofLevel config.indentAmount 1
  (Indent.ofLevel config.indentAmount 0).opening (classHeading config nodeClass.name) ::
    emptyLine ::
    nodeClass.fields.flatMap (DeclaredField.code indent) ++
    parentField config indent ++
    serialField config indent ++
    nodeClass.constructors.flatMap (Constructor.code config nodeClass.name) ++
    dispatchCode config

/-- The file of a class. -/
def unit (config : Config) (nodeClass : NodeClass) : CompilationUnit :=
  ⟨nodeClass.name, renderCode (nodeClass.code config)⟩

end NodeClass

/-! ## The class of a node type -/

/-- The declarations of fields, the one at the head being number `i`. -/
def declaredFields (indent : Indent) (annotations : Option Annotations) (i : Nat) :
    List Field → List DeclaredField
  | [] => []
  | field :: fields =>
    ⟨fieldDoc indent ((annotations.bind (·.fields[i]?)).getD []), field.type, field.name⟩ ::
      declaredFields indent annotations (i + 1) fields

theorem fieldDeclarations_eq (indent : Indent) (annotations : Option Annotations) (i : Nat)
    (fields : List Field) :
    fieldDeclarations indent annotations i fields =
      (declaredFields indent annotations i fields).flatMap (DeclaredField.code indent) := by
  induction fields generalizing i with
  | nil => rfl
  | cons field fields ih =>
      rw [fieldDeclarations, ih, declaredFields, List.flatMap_cons]
      rfl

/-- The constructor of a kind for some fields. -/
def Constructor.ofFields (config : Config) (fields : List Field) (kind : ConstructorKind) :
    Constructor where
  doc := codeIf config.javadocComments <|
    (Indent.ofLevel config.indentAmount 1).doc (constructorSummary config kind fields.length) <|
      (List.range (TreeSmith.parameters kind 0 fields).length).map fun n =>
        "@param " ++ parameterName n ++ " - " ++ parameterNote kind fields.length n
  parameters := TreeSmith.parameters kind 0 fields
  assigned := assignments kind 0 fields

/-- The constructor for a production that is code alone. -/
def Constructor.childless (config : Config) : Constructor where
  doc := codeIf config.javadocComments <|
    (Indent.ofLevel config.indentAmount 1).docAround
      [(Indent.ofLevel config.indentAmount 1).docLine "Constructs the node (which has no child)."]
  parameters := []
  assigned := []

/-- The constructors of a node type. -/
def constructorsOf (config : Config) (nodeType : NodeType) : List Constructor :=
  match nodeType.fields? with
  | none => [.childless config]
  | some fields =>
    .ofFields config fields .full ::
      if nodeType.needsInitializing then [.ofFields config fields .initializing] else []

theorem constructorCode_eq (config : Config) (name : String) (fields : List Field)
    (kind : ConstructorKind) :
    constructorCode config name fields kind =
      (Constructor.ofFields config fields kind).code config name := rfl

theorem constructors_eq (config : Config) (nodeType : NodeType) :
    constructors config nodeType =
      (constructorsOf config nodeType).flatMap (Constructor.code config nodeType.name) := by
  rw [constructors, constructorsOf]
  cases nodeType.fields? with
  | none =>
      have hheader : "public " ++ nodeType.name ++ "(" ++ "" ++ ")" =
          "public " ++ nodeType.name ++ "()" := by
        rw [String.append_empty, String.append_assoc]
        rfl
      rw [List.flatMap_singleton, Constructor.code, Constructor.childless]
      dsimp only
      rw [List.map_nil, String.intercalate_nil, hheader]
      rfl
  | some fields =>
      dsimp only
      rw [constructorCode_eq, constructorCode_eq]
      cases nodeType.needsInitializing <;> simp [codeIf]

/-- The class that is written for a production. -/
def nodeClass (config : Config) (comments : List Comment) (production : Production) : NodeClass :=
  let nodeType := NodeType.lower config production
  { name := nodeType.name
    fields := declaredFields (.ofLevel config.indentAmount 1)
      (Commentary.annotateIf ⟨comments, config⟩
        (config.javadocComments && nodeType.fields?.isSome) nodeType.production) 0 nodeType.fields
    constructors := constructorsOf config nodeType }

/-- The file of a production is that of its class. -/
theorem nodeType_share (config : Config) (comments : List Comment) (production : Production) :
    (share config comments production).nodeType =
      (nodeClass config comments production).unit config := by
  rw [share, Commentary.share, NodeClass.unit, NodeClass.code, Commentary.declaration,
    declarationCode, fieldDeclarations_eq, constructors_eq]
  rfl

/-! ## Visits -/

/-- The visit of a field, with what is written in front of it: comments, and the user's code. -/
structure FieldAccess where
  aside : Code
  field : String

/-- The visit of a node type in the depth-first visitor. -/
structure NodeVisit where
  doc : Code
  node : String
  accesses : List FieldAccess

/-- The statement that visits a field, and what is in front of it. -/
def FieldAccess.code (indent : Indent) (access : FieldAccess) : Code :=
  access.aside ++ [indent.line ("n." ++ access.field ++ ".accept(this);")]

/-- The method of a visit, with its documentation. -/
def NodeVisit.code (config : Config) (visit : NodeVisit) : Code :=
  visit.doc ++ depthFirstMethod config (.ofLevel config.indentAmount 1) visit.node
    (visit.accesses.flatMap (FieldAccess.code ((Indent.ofLevel config.indentAmount 1).move 1)))

/-- The visits of fields, the one at the head being number `i`. -/
def fieldAccesses (config : Config) (indent : Indent) (known : Option Annotations) (i : Nat) :
    List Field → List FieldAccess
  | [] => []
  | field :: fields =>
    ⟨inlineComments config indent i field known ++ userCode indent field, field.name⟩ ::
      fieldAccesses config indent known (i + 1) fields

theorem fieldVisits_eq (config : Config) (indent : Indent) (known : Option Annotations) (i : Nat)
    (fields : List Field) :
    fieldVisits config indent known i fields =
      (fieldAccesses config indent known i fields).flatMap (FieldAccess.code indent) := by
  induction fields generalizing i with
  | nil => rfl
  | cons field fields ih =>
      rw [fieldVisits, ih, fieldAccesses, List.flatMap_cons, FieldAccess.code,
        List.append_assoc _ [_]]
      rfl

/-- The visit that is written for a production. -/
def nodeVisit (config : Config) (comments : List Comment) (production : Production) : NodeVisit :=
  let nodeType := NodeType.lower config production
  let indent := Indent.ofLevel config.indentAmount 1
  { doc := Commentary.visitDoc ⟨comments, config⟩ config .void indent config.inlineAcceptMethods
      nodeType
    node := nodeType.name
    accesses := fieldAccesses config (indent.move 1)
      (Commentary.annotateIf ⟨comments, config⟩ config.inlineAcceptMethods nodeType.production) 0
      nodeType.fields }

/-- The method for a production is that of its visit. -/
theorem method_share_eq_code (config : Config) (comments : List Comment)
    (production : Production) :
    (share config comments production).method =
      (nodeVisit config comments production).code config := by
  rw [share, Commentary.share, NodeVisit.code]
  dsimp only
  rw [Commentary.visitBody, fieldVisits_eq]
  rfl

end TreeSmith

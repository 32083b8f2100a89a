import TreeSmith.NodeType.Frame

/-!
# TreeSmith.Support

**The support classes that every tree is built from**: a choice, three kinds of list, an optional
node, and the token. They do not depend on the grammar.
-/

namespace TreeSmith

/-- A support class. -/
inductive SupportClass where
  | choice
  | list
  | listOptional
  | optional
  | sequence
  | token
  deriving DecidableEq, Repr

namespace SupportClass

/-- All support classes, in the order in which visitors declare them. -/
def all : List SupportClass := [choice, list, listOptional, optional, sequence, token]

/-- The name of the class. -/
def name (config : Config) : SupportClass → String
  | choice => "NodeChoice"
  | list => "NodeList"
  | listOptional => "NodeListOptional"
  | optional => "NodeOptional"
  | sequence => "NodeSequence"
  | token => config.nodeToken

/-- The names of all support classes are those that the settings give. -/
theorem map_name_all (config : Config) : all.map (name config) = config.supportNames := rfl

/-- Does the class hold a list of nodes? -/
def isList : SupportClass → Bool
  | list | listOptional | sequence => true
  | choice | optional | token => false

/-- A public field of a support class. -/
structure PublicField where
  type : String
  name : String
  doc : String

/-- The public fields of the class. -/
def publicFields (config : Config) : SupportClass → List PublicField
  | choice =>
    [⟨config.nodeInterface, "choice", "The real node"⟩,
      ⟨"int", "which", "The index of the choice that was taken"⟩,
      ⟨"int", "total", "The total number of choices"⟩]
  | list | listOptional | sequence =>
    [⟨"ArrayList<" ++ config.nodeInterface ++ ">", "nodes", "The list of nodes"⟩]
  | optional => [⟨config.nodeInterface, "node", "The node, if present"⟩]
  | token => [⟨"String", "tokenImage", "The token image"⟩]

/-- The declarations of the public fields. -/
def fieldsCode (config : Config) (indent : Indent) (support : SupportClass) : Code :=
  (support.publicFields config).flatMap fun field =>
    codeIf config.javadocComments [indent.shortDoc field.doc] ++
      indent.paragraph ("public " ++ field.type ++ " " ++ field.name ++ ";")

/-- The constructors and methods of a class that holds a list. -/
def listMembers (config : Config) (name : String) (indent body deeper : Indent) : Code :=
  let node := config.nodeInterface
  indent.member ("public " ++ name ++ "()") [body.line "nodes = new ArrayList<>();"] ++
  indent.member ("public " ++ name ++ "(final " ++ node ++ " firstNode)")
    [body.line "nodes = new ArrayList<>();", body.line "addNode(firstNode);"] ++
  indent.member ("public void addNode(final " ++ node ++ " n)")
    (body.line "nodes.add(n);" :: adopt config body deeper "n") ++
  indent.member ("public " ++ node ++ " elementAt(final int i)")
    [body.line "return nodes.get(i);"] ++
  indent.member "public int size()" [body.line "return nodes.size();"]

/-- The constructors and methods of the class. -/
def members (config : Config) (support : SupportClass) : Code :=
  let indent := Indent.ofLevel config.indentAmount 1
  let body := Indent.ofLevel config.indentAmount 2
  let deeper := Indent.ofLevel config.indentAmount 3
  let name := support.name config
  let node := config.nodeInterface
  match support with
  | choice =>
    indent.member
      ("public " ++ name ++ "(final " ++ node ++
        " node, final int whichChoice, final int totalChoices)")
      (body.line "choice = node;" :: adopt config body deeper "choice" ++
        [body.line "which = whichChoice;", body.line "total = totalChoices;"])
  | list | sequence => listMembers config name indent body deeper
  | listOptional =>
    listMembers config name indent body deeper ++
      indent.member "public boolean present()" [body.line "return nodes.size() != 0;"]
  | optional =>
    indent.member ("public " ++ name ++ "()") [body.line "node = null;"] ++
    indent.member ("public " ++ name ++ "(final " ++ node ++ " n)") [body.line "addNode(n);"] ++
    indent.member ("public void addNode(final " ++ node ++ " n)")
      ([body.line "if (node != null)",
        deeper.line "throw new Error(\"Attempt to set optional node twice\");",
        body.line "node = n;"] ++ adopt config body deeper "n") ++
    indent.member "public boolean present()" [body.line "return node != null;"]
  | token =>
    indent.member ("public " ++ name ++ "(final String s)") [body.line "tokenImage = s;"] ++
    indent.line "@Override" ::
    indent.member "public String toString()" [body.line "return tokenImage;"]

/-- The whole class. -/
def code (config : Config) (support : SupportClass) : Code :=
  let outer := Indent.ofLevel config.indentAmount 0
  let indent := Indent.ofLevel config.indentAmount 1
  codeIf support.isList (outer.paragraph "import java.util.ArrayList;") ++
    outer.opening (classHeading config (support.name config)) :: emptyLine ::
    support.fieldsCode config indent ++
    parentField config indent ++
    serialField config indent ++
    support.members config ++
    dispatchCode config

end SupportClass

end TreeSmith

import TreeSmith.Config

/-!
# TreeSmith.Visitor.Flavor

**The four ways to visit a node**: with or without a value returned, and with or without an
argument. Everything that tells the four visitor interfaces apart is a function of the flavor:
their type parameters, the `visit` they declare, and the `accept` that leads to them.
-/

namespace TreeSmith

/-- A way to visit a node. -/
inductive Flavor where
  | retArgu
  | ret
  | voidArgu
  | void
  deriving DecidableEq, Repr

namespace Flavor

/-- All flavors, in the order in which they are generated. -/
def all : List Flavor := [retArgu, ret, voidArgu, void]

/-- Does a visit return a value? -/
def returns : Flavor → Bool
  | retArgu | ret => true
  | voidArgu | void => false

/-- Does a visit take an argument? -/
def takesArgument : Flavor → Bool
  | retArgu | voidArgu => true
  | ret | void => false

/-- The name of the visitor interface. -/
def name (config : Config) : Flavor → String
  | retArgu => config.retArguVisitor
  | ret => config.retVisitor
  | voidArgu => config.voidArguVisitor
  | void => config.voidVisitor

/-- The type parameters between their angle brackets, if there are any. -/
def generics (config : Config) : Flavor → String
  | retArgu => "<" ++ config.retType ++ ", " ++ config.arguType ++ ">"
  | ret => "<" ++ config.retType ++ ">"
  | voidArgu => "<" ++ config.arguType ++ ">"
  | void => ""

/-- The name of the visitor interface with its type parameters. -/
def genericName (config : Config) (flavor : Flavor) : String :=
  flavor.name config ++ flavor.generics config

/-- The type that a visit returns. -/
def returnType (config : Config) (flavor : Flavor) : String :=
  if flavor.returns then config.retType else "void"

/-- The argument as it follows the first parameter. -/
def furtherParameter (config : Config) (flavor : Flavor) : String :=
  if flavor.takesArgument then ", " ++ config.argument else ""

/-- The `visit` of a node type. -/
def visitSignature (config : Config) (flavor : Flavor) (node : String) : String :=
  flavor.returnType config ++ " visit(final " ++ node ++ " n" ++
    flavor.furtherParameter config ++ ")"

/-- The `accept` of every node. -/
def acceptSignature (config : Config) (flavor : Flavor) : String :=
  (if flavor = void then "" else flavor.generics config ++ " ") ++
    flavor.returnType config ++ " accept(final " ++ flavor.genericName config ++ " vis" ++
    flavor.furtherParameter config ++ ")"

/-- The statement of an `accept`, which leads back to the visitor. -/
def forward (flavor : Flavor) : String :=
  (if flavor.returns then "return " else "") ++ "vis.visit(this" ++
    (if flavor.takesArgument then ", argu" else "") ++ ");"

end Flavor

end TreeSmith

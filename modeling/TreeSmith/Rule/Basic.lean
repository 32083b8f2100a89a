/-!
# TreeSmith.Rule.Basic

**What a definition of the grammar notation says**, before anything is known about places.

Design points:

* Parentheses leave no trace. A sequence or an alternation of one member is that member, so
  `seq` and `alt` hold at least two rules in whatever the notation's reader returns.
* A label stands before the rule it names and changes nothing else.
-/

namespace TreeSmith

/-- A rule of the grammar notation. -/
inductive Rule where
  /-- A reference to the definition of that name. -/
  | node (name : String)
  /-- A quoted terminal, by its image. -/
  | token (image : String)
  | labeled (label : String) (rule : Rule)
  | opt (rule : Rule)
  | rep (rule : Rule)
  | seq (rules : List Rule)
  | alt (rules : List Rule)
  deriving Inhabited

/-- A name and the rule that defines it. -/
structure Definition where
  name : String
  rule : Rule
  deriving Inhabited

/-- The rule that the definitions give to a name. -/
def ruleOf? (definitions : List Definition) (name : String) : Option Rule :=
  (definitions.find? (·.name == name)).map Definition.rule

mutual

/-- The names that a rule refers to, in the order in which they are written. -/
def Rule.references : Rule → List String
  | .node name => [name]
  | .token _ => []
  | .labeled _ rule => rule.references
  | .opt rule => rule.references
  | .rep rule => rule.references
  | .seq rules => referencesAll rules
  | .alt rules => referencesAll rules

/-- The names that the rules of a list refer to, in order. -/
def referencesAll : List Rule → List String
  | [] => []
  | rule :: rules => rule.references ++ referencesAll rules

end

end TreeSmith

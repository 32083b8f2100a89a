import TreeSmith.Grammar.Basic

/-!
# TreeSmith.Generation.References

**The names that a production refers to**, at every depth and in the order of the text, each with
the place of the part that refers to it.
-/

namespace TreeSmith

/-- A reference to a production. -/
structure Reference where
  name : String
  span : Span
  deriving DecidableEq, Repr

mutual

/-- The references of a part. -/
def Part.references : Part → List Reference
  | .terminal .. => []
  | .nonTerminal span name _ => [⟨name, span⟩]
  | .composite _ _ choices _ => choicesReferences choices

/-- The references of the parts of a sequence. -/
def sequenceReferences : List Part → List Reference
  | [] => []
  | part :: parts => part.references ++ sequenceReferences parts

/-- The references of alternatives. -/
def choicesReferences : List (List Part) → List Reference
  | [] => []
  | sequence :: rest => sequenceReferences sequence ++ choicesReferences rest

end

/-- The references of a production; one that is code alone has none. -/
def Production.references (production : Production) : List Reference :=
  match production.body with
  | .choices choices => choicesReferences choices
  | .code _ => []

/-- The first reference of a production to a name that no production of the grammar has. -/
def Grammar.danglingReference? (grammar : Grammar) (production : Production) :
    Option Reference :=
  production.references.find? fun reference => !grammar.defines reference.name

end TreeSmith

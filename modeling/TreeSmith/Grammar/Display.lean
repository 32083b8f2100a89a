import TreeSmith.Grammar.Basic
import TreeSmith.Text.Blank

/-!
# TreeSmith.Grammar.Display

**A grammar written as text again**, one production a line.

Design points:

* Parentheses are written around a group, and around what a postfix operator applies to unless
  that is a single atom. The alternatives of a body, and the parts of a sequence, need none.
* In a quoted image only the quote is escaped. A backslash is written as it is.
* User code follows its part between braces, without surrounding white space.
-/

namespace TreeSmith

/-- The image of a terminal with a backslash before every quote. -/
def escapeQuotes (image : List Char) : List Char :=
  image.flatMap fun c => if c = '\x27' then ['\\', c] else [c]

/-- An image between single quotes. -/
def quoteImage (image : String) : String :=
  "'" ++ String.ofList (escapeQuotes image.toList) ++ "'"

/-- Code between braces. -/
def braced (code : String) : String :=
  "\x7b " ++ Text.trim code ++ " \x7d"

/-- The text that code adds after its part. -/
def codeSuffix : Option String → String
  | none => ""
  | some code => " " ++ braced code

/-- Are the alternatives a single atom, to which a postfix operator applies as it is? -/
def isSingleAtom : Choices → Bool
  | [[part]] => part.isAtom
  | _ => false

/-- The operator written after the choices of a composite part; a group has none. -/
def Multiplicity.operator : Multiplicity → String
  | .once => ""
  | .optional => "?"
  | .zeroOrMore => "*"
  | .oneOrMore => "+"

mutual

/-- A part as it is written in a grammar. -/
def Part.render : Part → String
  | .terminal _ image code => quoteImage image ++ codeSuffix code
  | .nonTerminal _ name code => name ++ codeSuffix code
  | .composite _ times choices code =>
    let bare := times != .once && isSingleAtom choices
    let inner := if bare then renderChoices choices else "(" ++ renderChoices choices ++ ")"
    inner ++ times.operator ++ codeSuffix code

/-- The parts of a sequence, separated by spaces. -/
def renderSequence : List Part → String
  | [] => ""
  | [part] => part.render
  | part :: rest => part.render ++ " " ++ renderSequence rest

/-- Alternatives, separated by bars. -/
def renderChoices : List (List Part) → String
  | [] => ""
  | [sequence] => renderSequence sequence
  | sequence :: rest => renderSequence sequence ++ " | " ++ renderChoices rest

end

/-- A production as it is written in a grammar. -/
def Production.render (production : Production) : String :=
  production.name ++ " = " ++
    match production.body with
    | .choices choices => renderChoices choices
    | .code code => braced code

/-- All productions, each on a line of its own. -/
def Grammar.render (grammar : Grammar) : String :=
  String.join (grammar.productions.map fun production => production.render ++ "\n")

end TreeSmith

import TreeSmith.Grammar.Reader
import TreeSmith.Proofs.Lexical.Agreement

/-!
# TreeSmith.Proofs.Written.Basic

**Bodies as they are written**, parentheses included. An outline says what a body means and has
forgotten its parentheses; the lexemes have all of them and no structure. A written body has both,
so it is what the two are compared through: `outline` forgets the parentheses, `lexemes` forgets
the structure.

A third function, `place`, says which part gets which span. It is the walk of the cursor, but by
recursion on what was written: `opens` are the opening parentheses that stand in front and that no
part has taken yet, and `trailing` are the closing ones at the end that no part takes.

Design points:

* Parentheses may stand around a part, around a sequence and around alternatives. Around one part
  they are redundant; around more they are a group, unless a body, an alternative or an operator
  asks for a sequence or alternatives anyway.
* Lexemes are built from what their kind allows, so a written body is never ill-formed.
* Written bodies are a little more liberal than the notation: redundant parentheses around the
  rest of a sequence are among them. What is proved of all of them needs no restriction.
-/

namespace TreeSmith

/-- A unit without parts: what terminals and non-terminals are written as. -/
inductive Leaf where
  | nonTerminal (span : Span) (name : String)
  | terminal (span : Span) (image : String)

namespace Leaf

def glyph : Leaf → Glyph
  | nonTerminal _ name => .ident name
  | terminal _ image => .literal image

def span : Leaf → Span
  | nonTerminal span _ => span
  | terminal span _ => span

def lexeme (leaf : Leaf) : Lexeme := leaf.glyph.lexeme leaf.span

def outline : Leaf → Outline
  | nonTerminal _ name => .nonTerminal name
  | terminal _ image => .terminal image

def part : Leaf → Part
  | nonTerminal span name => .nonTerminal span name none
  | terminal span image => .terminal span image none

@[simp] theorem span_part (leaf : Leaf) : leaf.part.span = leaf.span := by
  cases leaf <;> rfl

end Leaf

/-- The operators that stand behind what they apply to. -/
inductive Operator where
  | question
  | star

namespace Operator

def glyph : Operator → Glyph
  | question => .question
  | star => .star

def times : Operator → Multiplicity
  | question => .optional
  | star => .zeroOrMore

def outline : Operator → List (List Outline) → Outline
  | question => .optional
  | star => .zeroOrMore

end Operator

/-- The lexeme of an opening parenthesis. -/
abbrev openAt (span : Span) : Lexeme := Glyph.openParen.lexeme span

/-- The lexeme of a closing parenthesis. -/
abbrev closeAt (span : Span) : Lexeme := Glyph.closeParen.lexeme span

mutual

/-- One part of a sequence as it is written. -/
inductive WrittenPart where
  | leaf (leaf : Leaf)
  /-- A leaf with an operator: `A?`. -/
  | repeated (leaf : Leaf) (operator : Operator) (operatorSpan : Span)
  | labeled (span : Span) (label : String) (colon : Span) (part : WrittenPart)
  | group (opened : Span) (choices : WrittenChoices) (closed : Span)
  /-- Parentheses with an operator: `(A B)*`. -/
  | postfixed (opened : Span) (choices : WrittenChoices) (closed : Span) (operator : Operator)
      (operatorSpan : Span)
  /-- Redundant parentheses around a part. -/
  | parens (opened : Span) (part : WrittenPart) (closed : Span)

/-- A sequence as it is written. -/
inductive WrittenSequence where
  | one (part : WrittenPart)
  | more (part : WrittenPart) (rest : WrittenSequence)
  /-- Redundant parentheses around a sequence. -/
  | parens (opened : Span) (sequence : WrittenSequence) (closed : Span)

/-- Alternatives as they are written. -/
inductive WrittenChoices where
  | one (sequence : WrittenSequence)
  | more (sequence : WrittenSequence) (bar : Span) (rest : WrittenChoices)
  /-- Redundant parentheses around alternatives. -/
  | parens (opened : Span) (choices : WrittenChoices) (closed : Span)

end

/-! ## What is written, and what it means -/

mutual

/-- The lexemes of a part. -/
def WrittenPart.lexemes : WrittenPart → List Lexeme
  | .leaf leaf => [leaf.lexeme]
  | .repeated leaf operator operatorSpan => [leaf.lexeme, operator.glyph.lexeme operatorSpan]
  | .labeled span label colon part =>
    (Glyph.ident label).lexeme span :: Glyph.colon.lexeme colon :: part.lexemes
  | .group opened choices closed => openAt opened :: (choices.lexemes ++ [closeAt closed])
  | .postfixed opened choices closed operator operatorSpan =>
    openAt opened ::
      (choices.lexemes ++ [closeAt closed, operator.glyph.lexeme operatorSpan])
  | .parens opened part closed => openAt opened :: (part.lexemes ++ [closeAt closed])

/-- The lexemes of a sequence. -/
def WrittenSequence.lexemes : WrittenSequence → List Lexeme
  | .one part => part.lexemes
  | .more part rest => part.lexemes ++ rest.lexemes
  | .parens opened sequence closed => openAt opened :: (sequence.lexemes ++ [closeAt closed])

/-- The lexemes of alternatives. -/
def WrittenChoices.lexemes : WrittenChoices → List Lexeme
  | .one sequence => sequence.lexemes
  | .more sequence bar rest => sequence.lexemes ++ Glyph.pipe.lexeme bar :: rest.lexemes
  | .parens opened choices closed => openAt opened :: (choices.lexemes ++ [closeAt closed])

end

mutual

/-- What a part means. -/
def WrittenPart.outline : WrittenPart → Outline
  | .leaf leaf => leaf.outline
  | .repeated leaf operator _ => operator.outline [[leaf.outline]]
  | .labeled _ label _ part => .labeled label part.outline
  | .group _ choices _ => .group choices.outlines
  | .postfixed _ choices _ operator _ => operator.outline choices.outlines
  | .parens _ part _ => part.outline

/-- What the parts of a sequence mean. -/
def WrittenSequence.outlines : WrittenSequence → List Outline
  | .one part => [part.outline]
  | .more part rest => part.outline :: rest.outlines
  | .parens _ sequence _ => sequence.outlines

/-- What alternatives mean. -/
def WrittenChoices.outlines : WrittenChoices → List (List Outline)
  | .one sequence => [sequence.outlines]
  | .more sequence _ rest => sequence.outlines :: rest.outlines
  | .parens _ choices _ => choices.outlines

end

/-! ## Where it is written -/

mutual

/-- The closing parentheses at the end of a part that it does not take itself. -/
def WrittenPart.trailing : WrittenPart → List Span
  | .leaf _ => []
  | .repeated _ _ _ => []
  | .labeled _ _ _ part => part.trailing
  | .group _ choices closed => (choices.trailing ++ [closed]).tail
  | .postfixed _ _ _ _ _ => []
  | .parens _ part closed => part.trailing ++ [closed]

/-- The closing parentheses at the end of a sequence that none of its parts takes. -/
def WrittenSequence.trailing : WrittenSequence → List Span
  | .one part => part.trailing
  | .more _ rest => rest.trailing
  | .parens _ sequence closed => sequence.trailing ++ [closed]

/-- The closing parentheses at the end of alternatives that no part of them takes. -/
def WrittenChoices.trailing : WrittenChoices → List Span
  | .one sequence => sequence.trailing
  | .more _ _ rest => rest.trailing
  | .parens _ choices closed => choices.trailing ++ [closed]

end

mutual

/-- A part with the spans that it gets behind the opening parentheses `opens`. A composite part
takes the first of these and its own, and leaves the others to the parts inside. -/
def WrittenPart.place (opens : List Span) : WrittenPart → Part
  | .leaf leaf => leaf.part
  | .repeated leaf operator operatorSpan =>
    .composite ((coverOpen opens.head? leaf.span).cover operatorSpan) operator.times
      [[leaf.part]] none
  | .labeled span _ _ part => (part.place []).withSpan (span.cover (part.place []).span)
  | .group opened choices closed =>
    let placed := choices.place (opens ++ [opened]).tail
    .composite (coverClose (coverOpen (opens ++ [opened]).head? (choicesSpan placed))
      (choices.trailing ++ [closed]).head?) .once placed none
  | .postfixed opened choices _ operator operatorSpan =>
    let placed := choices.place (opens ++ [opened]).tail
    .composite ((coverOpen (opens ++ [opened]).head? (choicesSpan placed)).cover operatorSpan)
      operator.times placed none
  | .parens opened part _ => part.place (opens ++ [opened])

/-- The parts of a sequence with the spans that they get behind `opens`. -/
def WrittenSequence.place (opens : List Span) : WrittenSequence → Sequence
  | .one part => [part.place opens]
  | .more part rest => part.place opens :: rest.place []
  | .parens opened sequence _ => sequence.place (opens ++ [opened])

/-- Alternatives with the spans that they get behind `opens`. -/
def WrittenChoices.place (opens : List Span) : WrittenChoices → Choices
  | .one sequence => [sequence.place opens]
  | .more sequence _ rest => sequence.place opens :: rest.place []
  | .parens opened choices _ => choices.place (opens ++ [opened])

end

/-- Where one more parenthesis is kept, there is a first one to take. -/
theorem exists_first (spans : List Span) (span : Span) :
    ∃ first rest, spans ++ [span] = first :: rest :=
  List.exists_cons_of_ne_nil (List.append_ne_nil_of_right_ne_nil spans (List.cons_ne_nil span []))

/-! ## Productions -/

/-- A production as it is written. -/
structure WrittenProduction where
  nameSpan : Span
  name : String
  eqSpan : Span
  choices : WrittenChoices

namespace WrittenProduction

/-- The lexemes of a production. -/
def lexemes (production : WrittenProduction) : List Lexeme :=
  (Glyph.ident production.name).lexeme production.nameSpan ::
    Glyph.eq.lexeme production.eqSpan :: production.choices.lexemes

/-- A production with its spans. -/
def place (production : WrittenProduction) : Production :=
  ⟨production.name, production.nameSpan.cover (choicesSpan (production.choices.place [])),
    .choices (production.choices.place [])⟩

end WrittenProduction

/-- The lexemes of all productions. -/
def writtenLexemes (productions : List WrittenProduction) : List Lexeme :=
  productions.flatMap WrittenProduction.lexemes

end TreeSmith

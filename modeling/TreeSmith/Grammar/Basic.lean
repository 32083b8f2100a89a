import TreeSmith.Span

/-!
# TreeSmith.Grammar.Basic

**The grammar that trees are generated from.** A grammar is a list of productions in the order
they were written, together with the line comments of its text. A production is a choice between
sequences of parts, or code alone.

Design points:

* A composite part is one constructor with a `Multiplicity`: a group, an option and the two kinds
  of repetition differ in how often their choices occur, and in nothing else.
* The span of a sequence, and that of a list of alternatives, is the cover of the spans of its
  members (`sequenceSpan`, `choicesSpan`). It is computed and never stored, so that it cannot
  disagree with them. Where such spans are stored next to the members, they are set from them when
  a node is built; somebody could overwrite them afterwards, and nothing here would notice. A reader
  asks for the span of alternatives that it has just built, and the only other use is the slot of a
  choice. That slot has no others next to it, so its span decides nothing.
* Parts carry any spans whatsoever. Readers of a text promise more; trees built by hand do not.
-/

namespace TreeSmith

/-- A line comment: where it is, and its text without the marker and the line break. -/
structure Comment where
  span : Span
  text : String
  deriving DecidableEq, Repr, Inhabited

/-- How often the choices of a composite part occur. -/
inductive Multiplicity where
  /-- Exactly once: a group. -/
  | once
  | optional
  | zeroOrMore
  | oneOrMore
  deriving DecidableEq, Repr

/-- One part of a sequence. `code` is user code attached to the part, passed through as it is. -/
inductive Part where
  /-- A token with a fixed image. -/
  | terminal (span : Span) (image : String) (code : Option String)
  /-- A reference to the production of that name. -/
  | nonTerminal (span : Span) (name : String) (code : Option String)
  /-- Nested alternatives, each a sequence of parts. -/
  | composite (span : Span) (times : Multiplicity) (choices : List (List Part))
      (code : Option String)
  deriving Inhabited

/-- The parts of one alternative, in order. -/
abbrev Sequence := List Part

/-- The alternatives of a body or of a composite part, in order. -/
abbrev Choices := List Sequence

namespace Part

/-- Where the part was written. -/
def span : Part → Span
  | terminal span _ _ => span
  | nonTerminal span _ _ => span
  | composite span _ _ _ => span

/-- The user code attached to the part, if any. Empty code is still code. -/
def code : Part → Option String
  | terminal _ _ code => code
  | nonTerminal _ _ code => code
  | composite _ _ _ code => code

/-- The nested alternatives of a composite part. -/
def nested : Part → Option Choices
  | terminal .. => none
  | nonTerminal .. => none
  | composite _ _ choices _ => some choices

/-- Has the part no parts inside? -/
def isAtom (part : Part) : Bool :=
  part.nested.isNone

/-- The same part written elsewhere. -/
def withSpan (part : Part) (span : Span) : Part :=
  match part with
  | terminal _ image code => terminal span image code
  | nonTerminal _ name code => nonTerminal span name code
  | composite _ times choices code => composite span times choices code

@[simp] theorem span_withSpan (part : Part) (span : Span) : (part.withSpan span).span = span := by
  cases part <;> rfl

@[simp] theorem nested_withSpan (part : Part) (span : Span) :
    (part.withSpan span).nested = part.nested := by
  cases part <;> rfl

end Part

/-- The cover of the parts of a sequence. -/
def sequenceSpan (sequence : Sequence) : Span :=
  Span.coverAll (sequence.map Part.span)

/-- The cover of all alternatives. -/
def choicesSpan (choices : Choices) : Span :=
  Span.coverAll (choices.map sequenceSpan)

/-- Is there more than one alternative to choose from? -/
def isChoice (choices : Choices) : Bool :=
  1 < choices.length

/-- What a production says. -/
inductive Body where
  /-- A choice between sequences of parts. -/
  | choices (choices : Choices)
  /-- User code alone: such a production has no children. -/
  | code (code : String)
  deriving Inhabited

/-- A named rule of the grammar. -/
structure Production where
  name : String
  span : Span
  body : Body
  deriving Inhabited

/-- The alternatives of a production, unless it is code alone. -/
def Production.choices? (production : Production) : Option Choices :=
  match production.body with
  | .choices choices => some choices
  | .code _ => none

/-- Productions and comments, each in the order of the text. -/
structure Grammar where
  productions : List Production
  comments : List Comment
  deriving Inhabited

namespace Grammar

/-- The first production of that name. -/
def production? (grammar : Grammar) (name : String) : Option Production :=
  grammar.productions.find? (·.name == name)

/-- Is there a production of that name? -/
def defines (grammar : Grammar) (name : String) : Bool :=
  grammar.productions.any (·.name == name)

end Grammar

/-- The comments that lie entirely inside `span`, in their order. -/
def commentsIn (comments : List Comment) (span : Span) : List Comment :=
  comments.filter fun comment => span.contains comment.span

theorem mem_commentsIn {comments : List Comment} {span : Span} {comment : Comment} :
    comment ∈ commentsIn comments span ↔
      comment ∈ comments ∧ span.contains comment.span = true := by
  simp [commentsIn]

end TreeSmith

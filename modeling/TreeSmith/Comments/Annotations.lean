import TreeSmith.Config
import TreeSmith.Grammar.Basic
import TreeSmith.Text.Blank

/-!
# TreeSmith.Comments.Annotations

**Which comment documents which part of a production.** A production has fields: its body is one
field if there are alternatives to choose from, otherwise every part of it is one. A composite
part inside a field is a sub-part of that field. Sub-parts are numbered through the whole
production, each before the sub-parts inside it, which is the order in which visitors meet them.

Design points:

* Every comment of a production has exactly one owner (`ownerOf`): the last sub-part that contains
  it among those of its field, or the field itself. Its field is the first one that ends behind
  the start of the comment, or else the last one.
* A block holds the comments of one owner, in the order of the grammar. It is a filter of all
  comments by their owner, so blocks cannot overlap and none loses a comment.
* No order or nesting of the spans is assumed. The rule above is followed whatever they are.
-/

namespace TreeSmith

/-- One line of a comment, without surrounding white space, and where it comes from if that is
to be shown. -/
structure CommentLine where
  bare : String
  debug : Option String
  deriving DecidableEq, Repr

/-- The comment lines of one owner. -/
abbrev CommentBlock := List CommentLine

/-- The block of a sub-part, and the field that the sub-part is in. -/
structure SubPart where
  field : Nat
  block : CommentBlock
  deriving DecidableEq, Repr

/-- The comments of a production by their owners. -/
structure Annotations where
  /-- One block for every field. -/
  fields : List CommentBlock
  /-- One block for every sub-part, if these are kept. -/
  subs : Option (List SubPart)
  deriving DecidableEq, Repr

/-- The sub-parts of field `i`, each with its number in the production. -/
def Annotations.subsOf (annotations : Annotations) (i : Nat) : List (Nat × SubPart) :=
  ((annotations.subs.getD []).zipIdx.map fun (sub, k) => (k, sub)).filter fun (_, sub) =>
    sub.field == i

/-! ## Fields and sub-parts -/

mutual

/-- The spans of a composite part and of all composite parts inside, the outer ones first. -/
def Part.compositeSpans : Part → List Span
  | .terminal .. => []
  | .nonTerminal .. => []
  | .composite span _ choices _ => span :: compositeSpans choices

/-- The spans of all composite parts of a sequence. -/
def compositeSpansOfSequence : List Part → List Span
  | [] => []
  | part :: parts => part.compositeSpans ++ compositeSpansOfSequence parts

/-- The spans of all composite parts of alternatives. -/
def compositeSpans : List (List Part) → List Span
  | [] => []
  | sequence :: rest => compositeSpansOfSequence sequence ++ compositeSpans rest

end

/-- A field with the spans of its sub-parts. -/
structure FieldSlot where
  span : Span
  subs : List Span
  deriving DecidableEq, Repr

/-- The fields of a body. -/
def fieldSlots (choices : Choices) : List FieldSlot :=
  if isChoice choices then [⟨choicesSpan choices, compositeSpans choices⟩]
  else choices.flatten.map fun part => ⟨part.span, compositeSpans (part.nested.getD [])⟩

/-! ## Owners -/

/-- What a comment belongs to. -/
inductive Owner where
  | field (i : Nat)
  | sub (k : Nat)
  deriving DecidableEq, Repr

/-- The name of an owner in debug texts. -/
def Owner.label : Owner → String
  | field i => "f" ++ toString i
  | sub k => "s" ++ toString k

/-- The last position in a list where `p` holds. -/
def lastIdx? {α : Type} (p : α → Bool) : List α → Option Nat
  | [] => none
  | a :: as =>
    match lastIdx? p as with
    | some j => some (j + 1)
    | none => if p a then some 0 else none

/-- The field that a comment falls to: the first one that ends behind its start, or else the
last one. -/
def fieldIdx (slots : List FieldSlot) (comment : Span) : Nat :=
  (slots.findIdx? fun slot => comment.start < slot.span.stop).getD (slots.length - 1)

/-- How many sub-parts the fields before field `i` have. -/
def firstSub (slots : List FieldSlot) (i : Nat) : Nat :=
  ((slots.take i).flatMap FieldSlot.subs).length

/-- The owner of a comment in a production with these fields. -/
def ownerOf (slots : List FieldSlot) (comment : Span) : Owner :=
  let i := fieldIdx slots comment
  let subs := (slots[i]?.map FieldSlot.subs).getD []
  match lastIdx? (·.contains comment) subs with
  | some j => .sub (firstSub slots i + j)
  | none => .field i

/-! ## Blocks -/

/-- The comments of a grammar and the settings by which they are shown. -/
structure Commentary where
  comments : List Comment
  config : Config

namespace Commentary

/-- The line that a comment becomes in the block of its owner. -/
def line (commentary : Commentary) (owner : Owner) (comment : Comment) : CommentLine where
  bare := Text.trim comment.text
  debug :=
    if commentary.config.debugComments then
      some (" // " ++ owner.label ++ " @" ++ comment.span.render)
    else none

/-- The comments inside `span`, each with its owner. -/
def owned (commentary : Commentary) (slots : List FieldSlot) (span : Span) :
    List (Owner × CommentLine) :=
  (commentsIn commentary.comments span).map fun comment =>
    let owner := ownerOf slots comment.span
    (owner, commentary.line owner comment)

/-- The field of every sub-part, in the order of their numbers. -/
def subFields (slots : List FieldSlot) : List Nat :=
  slots.zipIdx.flatMap fun (slot, i) => List.replicate slot.subs.length i

/-- The lines of one owner. -/
def blockOf (lines : List (Owner × CommentLine)) (owner : Owner) : CommentBlock :=
  lines.filterMap fun (o, line) => if o = owner then some line else none

/-- The comments of a production by their owners; a production that is code alone has none. A
production without fields has no blocks, and its comments are dropped. -/
def annotate (commentary : Commentary) (production : Production) : Option Annotations :=
  production.choices?.map fun choices =>
    let slots := fieldSlots choices
    let lines := commentary.owned slots production.span
    let subs := (subFields slots).zipIdx.map fun (i, k) => ⟨i, blockOf lines (.sub k)⟩
    { fields := (List.range slots.length).map fun i => blockOf lines (.field i)
      subs := if commentary.config.inlineAcceptMethods then some subs else none }

end Commentary

end TreeSmith

import TreeSmith.Rule.Basic

/-!
# TreeSmith.Grammar.Outline

**The shape of a production's body, without places.** A rule of the notation is read in three
ways, depending on where it stands:

* as the alternatives of a body or of what a postfix operator applies to,
* as the sequence of parts of one alternative,
* as one part of a sequence.

An alternation is alternatives by itself, and a sequence is a sequence by itself; wherever they
stand for less than that, they are grouped. Every other rule is one part, hence a sequence of one
part, hence one alternative. `Rule.views` gives all three readings of a rule from those of its
members.
-/

namespace TreeSmith

/-- A part of a body as it was written, labels included. -/
inductive Outline where
  | terminal (image : String)
  | nonTerminal (name : String)
  | labeled (label : String) (inner : Outline)
  | group (choices : List (List Outline))
  | optional (choices : List (List Outline))
  | zeroOrMore (choices : List (List Outline))
  deriving Inhabited

/-- The three readings of a rule. -/
structure RuleViews where
  part : Outline
  sequence : List Outline
  choices : List (List Outline)
  deriving Inhabited

namespace RuleViews

/-- The readings of what is one part. -/
def ofPart (part : Outline) : RuleViews :=
  ⟨part, [part], [[part]]⟩

/-- The readings of a sequence: as one part it is a group. -/
def ofSequence (sequence : List Outline) : RuleViews :=
  ⟨.group [sequence], sequence, [sequence]⟩

/-- The readings of alternatives: as one part, and so as a sequence, they are a group. -/
def ofChoices (choices : List (List Outline)) : RuleViews :=
  ⟨.group choices, [.group choices], choices⟩

end RuleViews

mutual

/-- The three readings of a rule. -/
def Rule.views : Rule → RuleViews
  | .node name => .ofPart (.nonTerminal name)
  | .token image => .ofPart (.terminal image)
  | .labeled label rule => .ofPart (.labeled label rule.views.part)
  | .opt rule => .ofPart (.optional rule.views.choices)
  | .rep rule => .ofPart (.zeroOrMore rule.views.choices)
  | .seq rules => .ofSequence ((viewsAll rules).map RuleViews.part)
  | .alt rules => .ofChoices ((viewsAll rules).map RuleViews.sequence)

/-- The readings of the rules of a list. -/
def viewsAll : List Rule → List RuleViews
  | [] => []
  | rule :: rules => rule.views :: viewsAll rules

end

@[simp] theorem viewsAll_eq_map (rules : List Rule) : viewsAll rules = rules.map Rule.views := by
  induction rules with
  | nil => rfl
  | cons rule rules ih => simp [viewsAll, ih]

end TreeSmith

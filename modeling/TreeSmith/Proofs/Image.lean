import TreeSmith.Proofs.Written.Text

/-!
# TreeSmith.Proofs.Image

**A grammar is the image of its definitions.** A text is read as a grammar exactly if it is in the
notation, and then the grammar has one production for each definition, in the order in which the
text defines them, whose body is what the rule says (`ofText_is_image`).

Design points:

* What a rule says is written down a second time, as the three images of `Rule.partImage`, from
  the notation alone: no lexeme, no cursor and no span is mentioned there.
* Spans are compared with nothing here. `unplaced` sets all of them to `Span.zero`.
* The names of productions are read off the lexemes by looking one lexeme ahead
  (`definedNames`), without parsing anything.
-/

namespace TreeSmith

/-! ## Productions without places -/

mutual

/-- A part without its places. -/
def Part.unplaced : Part → Part
  | .terminal _ image code => .terminal .zero image code
  | .nonTerminal _ name code => .nonTerminal .zero name code
  | .composite _ times choices code => .composite .zero times (unplacedChoices choices) code

/-- A sequence without its places. -/
def unplacedSequence : List Part → List Part
  | [] => []
  | part :: rest => part.unplaced :: unplacedSequence rest

/-- Alternatives without their places. -/
def unplacedChoices : List (List Part) → List (List Part)
  | [] => []
  | sequence :: rest => unplacedSequence sequence :: unplacedChoices rest

end

/-- A production without its places. -/
def Production.unplaced (production : Production) : Production :=
  { production with
    span := .zero
    body := match production.body with
      | .choices choices => .choices (unplacedChoices choices)
      | .code code => .code code }

theorem unplaced_withSpan (part : Part) (span : Span) :
    (part.withSpan span).unplaced = part.unplaced := by
  cases part <;> simp [Part.withSpan, Part.unplaced]

/-! ## The image of a definition -/

mutual

/-- What a rule says as one part of a sequence. A sequence and an alternation are a group there,
also behind a label, which itself says nothing. -/
def Rule.partImage : Rule → Part
  | .node name => .nonTerminal .zero name none
  | .token image => .terminal .zero image none
  | .labeled _ rule => rule.partImage
  | .opt rule => .composite .zero .optional rule.choicesImage none
  | .rep rule => .composite .zero .zeroOrMore rule.choicesImage none
  | .seq rules => .composite .zero .once [rules.map fun rule => rule.partImage] none
  | .alt rules => .composite .zero .once (rules.map fun rule => rule.sequenceImage) none
termination_by rule => (sizeOf rule, 0)

/-- What a rule says as an alternative: only a sequence has more than one part. -/
def Rule.sequenceImage : Rule → Sequence
  | .seq rules => rules.map fun rule => rule.partImage
  | rule => [rule.partImage]
termination_by rule => (sizeOf rule, 1)

/-- What a rule says as a body, or below an operator: only an alternation has more than one
alternative. -/
def Rule.choicesImage : Rule → Choices
  | .alt rules => rules.map fun rule => rule.sequenceImage
  | rule => [rule.sequenceImage]
termination_by rule => (sizeOf rule, 2)

end

theorem sequenceImage_of_ne_seq (rule : Rule) (h : ∀ rules, rule ≠ .seq rules) :
    rule.sequenceImage = [rule.partImage] := by
  unfold Rule.sequenceImage
  split
  · exact absurd rfl (h _)
  · rfl

theorem choicesImage_of_ne_alt (rule : Rule) (h : ∀ rules, rule ≠ .alt rules) :
    rule.choicesImage = [rule.sequenceImage] := by
  unfold Rule.choicesImage
  split
  · exact absurd rfl (h _)
  · rfl

/-- The production that a definition defines, without places. -/
def Definition.image (definition : Definition) : Production :=
  ⟨definition.name, .zero, .choices definition.rule.choicesImage⟩

/-- The names that lexemes define: those directly in front of an equals sign. -/
def definedNames : List Lexeme → List String
  | [] => []
  | lexeme :: rest =>
    if lexeme.kind = .ident ∧ rest.head?.map Lexeme.kind = some .eq then
      lexeme.text :: definedNames rest
    else definedNames rest

/-! ## The image of what is written -/

mutual

/-- What an outline says: its labels say nothing. -/
def Outline.image : Outline → Part
  | .terminal image => .terminal .zero image none
  | .nonTerminal name => .nonTerminal .zero name none
  | .labeled _ inner => inner.image
  | .group choices => .composite .zero .once (choicesImage choices) none
  | .optional choices => .composite .zero .optional (choicesImage choices) none
  | .zeroOrMore choices => .composite .zero .zeroOrMore (choicesImage choices) none

/-- What a sequence of outlines says. -/
def sequenceImage : List Outline → List Part
  | [] => []
  | outline :: rest => outline.image :: sequenceImage rest

/-- What alternatives of outlines say. -/
def choicesImage : List (List Outline) → List (List Part)
  | [] => []
  | sequence :: rest => sequenceImage sequence :: choicesImage rest

end

theorem Leaf.unplaced_part (leaf : Leaf) : leaf.part.unplaced = leaf.outline.image := by
  cases leaf <;> rfl

theorem Operator.image_outline (operator : Operator) (choices : List (List Outline)) :
    (operator.outline choices).image =
      .composite .zero operator.times (choicesImage choices) none := by
  cases operator <;> rfl

mutual

/-- A part with spans is, without them, what it means. -/
theorem unplaced_place : ∀ (part : WrittenPart) (opens : List Span),
    (part.place opens).unplaced = part.outline.image
  | .leaf leaf, _ => leaf.unplaced_part
  | .repeated leaf operator _, _ => by
      rw [WrittenPart.place, WrittenPart.outline, Operator.image_outline, choicesImage,
        choicesImage, sequenceImage, sequenceImage, ← leaf.unplaced_part]
      rfl
  | .labeled _ _ _ part, _ => by
      rw [WrittenPart.place, unplaced_withSpan, unplaced_place part []]
      rfl
  | .group opened choices _, opens => by
      rw [WrittenPart.outline, Outline.image, ← unplacedChoices_place choices
        (opens ++ [opened]).tail]
      rfl
  | .postfixed opened choices _ operator _, opens => by
      rw [WrittenPart.outline, Operator.image_outline, ← unplacedChoices_place choices
        (opens ++ [opened]).tail]
      rfl
  | .parens opened part _, opens => unplaced_place part (opens ++ [opened])

theorem unplacedSequence_place : ∀ (sequence : WrittenSequence) (opens : List Span),
    unplacedSequence (sequence.place opens) = sequenceImage sequence.outlines
  | .one part, opens => by
      rw [WrittenSequence.place, WrittenSequence.outlines, unplacedSequence, sequenceImage,
        unplaced_place part opens]
      rfl
  | .more part rest, opens => by
      rw [WrittenSequence.place, WrittenSequence.outlines, unplacedSequence, sequenceImage,
        unplaced_place part opens, unplacedSequence_place rest []]
  | .parens opened sequence _, opens => unplacedSequence_place sequence (opens ++ [opened])

theorem unplacedChoices_place : ∀ (choices : WrittenChoices) (opens : List Span),
    unplacedChoices (choices.place opens) = choicesImage choices.outlines
  | .one sequence, opens => by
      rw [WrittenChoices.place, WrittenChoices.outlines, unplacedChoices, choicesImage,
        unplacedSequence_place sequence opens]
      rfl
  | .more sequence _ rest, opens => by
      rw [WrittenChoices.place, WrittenChoices.outlines, unplacedChoices, choicesImage,
        unplacedSequence_place sequence opens, unplacedChoices_place rest []]
  | .parens opened choices _, opens => unplacedChoices_place choices (opens ++ [opened])

end

/-- The three readings of a rule mean its three images. -/
structure RuleViews.Mean (views : RuleViews) (rule : Rule) : Prop where
  part : views.part.image = rule.partImage
  sequence : sequenceImage views.sequence = rule.sequenceImage
  choices : choicesImage views.choices = rule.choicesImage

/-- What is one part has the same image in all three places. -/
theorem RuleViews.Mean.ofPart {rule : Rule} {outline : Outline}
    (hpart : outline.image = rule.partImage) (hseq : ∀ rules, rule ≠ .seq rules)
    (halt : ∀ rules, rule ≠ .alt rules) : (RuleViews.ofPart outline).Mean rule := by
  refine ⟨hpart, ?_, ?_⟩
  · rw [sequenceImage_of_ne_seq rule hseq, ← hpart]
    rfl
  · rw [choicesImage_of_ne_alt rule halt, sequenceImage_of_ne_seq rule hseq, ← hpart]
    rfl

mutual

theorem views_mean : ∀ rule : Rule, rule.views.Mean rule
  | .node name => .ofPart (by rw [Rule.partImage]; rfl) nofun nofun
  | .token image => .ofPart (by rw [Rule.partImage]; rfl) nofun nofun
  | .labeled label rule =>
      .ofPart (by rw [Rule.partImage, Outline.image, (views_mean rule).part]) nofun nofun
  | .opt rule =>
      .ofPart (by rw [Rule.partImage, Outline.image, (views_mean rule).choices]) nofun nofun
  | .rep rule =>
      .ofPart (by rw [Rule.partImage, Outline.image, (views_mean rule).choices]) nofun nofun
  | .seq rules => by
      -- A sequence is itself as a sequence, the only alternative of a body, and a group as a part.
      have hsequence := (viewsAll_mean rules).1
      have hrule : (Rule.seq rules).sequenceImage = rules.map Rule.partImage := by
        rw [Rule.sequenceImage]
      refine ⟨?_, hsequence.trans hrule.symm, ?_⟩
      · rw [Rule.partImage, ← hsequence]
        rfl
      · rw [choicesImage_of_ne_alt (.seq rules) nofun, hrule, ← hsequence]
        rfl
  | .alt rules => by
      -- An alternation is itself as a body, and a group both as a part and as a sequence.
      have hchoices := (viewsAll_mean rules).2
      have hpart : (Rule.alt rules).views.part.image = (Rule.alt rules).partImage := by
        rw [Rule.partImage, ← hchoices]
        rfl
      refine ⟨hpart, ?_, ?_⟩
      · rw [sequenceImage_of_ne_seq (.alt rules) nofun, ← hpart]
        rfl
      · rw [Rule.choicesImage, ← hchoices]
        rfl

theorem viewsAll_mean : ∀ rules : List Rule,
    sequenceImage ((viewsAll rules).map RuleViews.part) = rules.map Rule.partImage ∧
      choicesImage ((viewsAll rules).map RuleViews.sequence) = rules.map Rule.sequenceImage
  | [] => ⟨rfl, rfl⟩
  | rule :: rules => by
      obtain ⟨hsequence, hchoices⟩ := viewsAll_mean rules
      constructor
      · rw [viewsAll, List.map_cons, List.map_cons, sequenceImage, hsequence,
          (views_mean rule).part]
      · rw [viewsAll, List.map_cons, List.map_cons, choicesImage, hchoices,
          (views_mean rule).sequence]

end

/-- A production that is written for a definition is, without its spans, what it says. -/
theorem WrittenFor.unplaced_place {definition : Definition} {production : WrittenProduction}
    (h : WrittenFor definition production) : production.place.unplaced = definition.image := by
  rw [Definition.image, ← (views_mean definition.rule).choices, h.outlines, h.name,
    ← unplacedChoices_place production.choices []]
  rfl

theorem unplaced_of_writtenFor {definitions : List Definition}
    {productions : List WrittenProduction}
    (h : List.Forall₂ WrittenFor definitions productions) :
    (productions.map WrittenProduction.place).map Production.unplaced =
      definitions.map Definition.image := by
  induction h with
  | nil => rfl
  | cons hfirst _ ih => exact congrArg₂ List.cons hfirst.unplaced_place ih

/-! ## The names of productions -/

mutual

/-- No equals sign is written inside a body. -/
theorem kind_ne_eq_part : ∀ part : WrittenPart, ∀ lexeme ∈ part.lexemes, lexeme.kind ≠ .eq
  | .leaf leaf => by
      cases leaf <;> simp [WrittenPart.lexemes, Leaf.lexeme, Leaf.glyph, Glyph.lexeme, Glyph.kind]
  | .repeated leaf operator _ => by
      cases leaf <;> cases operator <;>
        simp [WrittenPart.lexemes, Leaf.lexeme, Leaf.glyph, Operator.glyph, Glyph.lexeme,
          Glyph.kind]
  | .labeled _ _ _ part => by
      have hpart := kind_ne_eq_part part
      simpa [WrittenPart.lexemes, Glyph.lexeme, Glyph.kind] using hpart
  | .group _ choices _ => by
      have hchoices := kind_ne_eq_choices choices
      simpa [WrittenPart.lexemes, Glyph.lexeme, Glyph.kind, or_imp, forall_and] using hchoices
  | .postfixed _ choices _ operator _ => by
      have hchoices := kind_ne_eq_choices choices
      cases operator <;>
        simpa [WrittenPart.lexemes, Operator.glyph, Glyph.lexeme, Glyph.kind, or_imp, forall_and]
          using hchoices
  | .parens _ part _ => by
      have hpart := kind_ne_eq_part part
      simpa [WrittenPart.lexemes, Glyph.lexeme, Glyph.kind, or_imp, forall_and] using hpart

theorem kind_ne_eq_sequence :
    ∀ sequence : WrittenSequence, ∀ lexeme ∈ sequence.lexemes, lexeme.kind ≠ .eq
  | .one part => kind_ne_eq_part part
  | .more part rest => by
      intro lexeme hlexeme
      rcases List.mem_append.1 hlexeme with hpart | hrest
      · exact kind_ne_eq_part part lexeme hpart
      · exact kind_ne_eq_sequence rest lexeme hrest
  | .parens _ sequence _ => by
      have hsequence := kind_ne_eq_sequence sequence
      simpa [WrittenSequence.lexemes, Glyph.lexeme, Glyph.kind, or_imp, forall_and]
        using hsequence

theorem kind_ne_eq_choices :
    ∀ choices : WrittenChoices, ∀ lexeme ∈ choices.lexemes, lexeme.kind ≠ .eq
  | .one sequence => kind_ne_eq_sequence sequence
  | .more sequence bar rest => by
      intro lexeme hlexeme
      rcases List.mem_append.1 hlexeme with hsequence | hrest
      · exact kind_ne_eq_sequence sequence lexeme hsequence
      · rcases List.mem_cons.1 hrest with rfl | hrest
        · simp [Glyph.lexeme, Glyph.kind]
        · exact kind_ne_eq_choices rest lexeme hrest
  | .parens _ choices _ => by
      have hchoices := kind_ne_eq_choices choices
      simpa [WrittenChoices.lexemes, Glyph.lexeme, Glyph.kind, or_imp, forall_and]
        using hchoices

end

/-- Lexemes without an equals sign define nothing. -/
theorem definedNames_append {used rest : List Lexeme} (hused : ∀ lexeme ∈ used, lexeme.kind ≠ .eq)
    (hrest : rest.head?.map Lexeme.kind ≠ some .eq) :
    definedNames (used ++ rest) = definedNames rest := by
  induction used with
  | nil => rfl
  | cons lexeme used ih =>
      -- What comes next is used as well, or comes first behind.
      have hnext : (used ++ rest).head?.map Lexeme.kind ≠ some .eq := by
        cases used with
        | nil => exact hrest
        | cons next used => simpa using hused next (by simp)
      rw [List.cons_append, definedNames, if_neg (fun hdefines => hnext hdefines.2)]
      exact ih fun other hother => hused other (List.mem_cons_of_mem _ hother)

theorem head?_writtenLexemes (productions : List WrittenProduction) :
    (writtenLexemes productions).head?.map Lexeme.kind ≠ some .eq := by
  cases productions with
  | nil => exact fun h => nomatch h
  | cons production productions =>
      simp [writtenLexemes, WrittenProduction.lexemes, Glyph.lexeme, Glyph.kind]

/-- Written productions define their names, in order. -/
theorem definedNames_writtenLexemes (productions : List WrittenProduction) :
    definedNames (writtenLexemes productions) = productions.map WrittenProduction.name := by
  induction productions with
  | nil => rfl
  | cons production productions ih =>
      have hskip := definedNames_append (kind_ne_eq_choices production.choices)
        (head?_writtenLexemes productions)
      have heq : ∀ rest : List Lexeme,
          definedNames (Glyph.eq.lexeme production.eqSpan :: rest) = definedNames rest :=
        fun rest => if_neg fun h => nomatch h.1
      have hname : definedNames (writtenLexemes (production :: productions)) =
          production.name :: definedNames (Glyph.eq.lexeme production.eqSpan ::
            (production.choices.lexemes ++ writtenLexemes productions)) :=
        if_pos ⟨rfl, rfl⟩
      rw [hname, heq, hskip, ih, List.map_cons]

/-! ## The refinement -/

/-- **A grammar is the image of its definitions.** What is not in the notation is rejected as
such, and never for another reason; what is in the notation is read, with its productions in the
order of the text and each of them saying what its definition says. -/
theorem ofText_is_image (text : String) :
    match readNotation text with
    | .error fault => Grammar.ofText text = .error (.invalid fault)
    | .ok definitions => ∃ grammar lexemes, Grammar.ofText text = .ok grammar ∧
        tokenize text = .ok lexemes ∧
        grammar.productions.map Production.name = definedNames lexemes.lexemes ∧
        grammar.productions.map Production.unplaced = definitions.map Definition.image := by
  cases hread : readNotation text with
  | error fault => exact ofText_of_fault hread
  | ok definitions =>
      obtain ⟨lexemes, productions, hwritten⟩ := exists_written hread
      refine ⟨_, lexemes, hwritten.ofText, hwritten.tokenize, ?_, ?_⟩
      · rw [hwritten.lexemes_eq, definedNames_writtenLexemes, List.map_map]
        rfl
      · exact unplaced_of_writtenFor hwritten.writtenFor

end TreeSmith

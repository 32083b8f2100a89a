import Mathlib
import TreeSmith.Proofs.Written.Places
import TreeSmith.Proofs.Written.Text

/-!
# TreeSmith.Proofs.Leaves

**The leaves of a grammar are its names and literals.** Read from left to right, the terminals and
non-terminals of all productions are the literals and the identifiers of the text, without those
that name a production or a label (`ofText_leaves`). Each has the text and the place of its lexeme;
only its start is drawn to the left, to the outermost label that stands for this very part.

Design points:

* Which parts are expected is said by looking at the lexemes around one lexeme, and nowhere else
  (`leafParts`). Labels are looked for from the lexeme to the left (`labelStart`), through
  redundant parentheses, which are redundant as they close right behind the part.
* A label in front of an operator names what the operator makes, and no leaf.
* A sequence or alternatives in parentheses are not affected by what stands around them. This is
  where it matters that a group is never around a single part.
-/

namespace TreeSmith

/-! ## The leaves of a grammar -/

mutual

/-- The terminals and non-terminals of a part, from left to right. -/
def Part.leaves : Part → List Part
  | .terminal span image code => [.terminal span image code]
  | .nonTerminal span name code => [.nonTerminal span name code]
  | .composite _ _ choices _ => choicesLeaves choices

/-- The terminals and non-terminals of a sequence. -/
def sequenceLeaves : List Part → List Part
  | [] => []
  | part :: rest => part.leaves ++ sequenceLeaves rest

/-- The terminals and non-terminals of alternatives. -/
def choicesLeaves : List (List Part) → List Part
  | [] => []
  | sequence :: rest => sequenceLeaves sequence ++ choicesLeaves rest

end

/-- The terminals and non-terminals of a production. -/
def Production.leaves (production : Production) : List Part :=
  match production.body with
  | .choices choices => choicesLeaves choices
  | .code _ => []

/-! ## The leaves that lexemes stand for -/

/-- The kind of the first lexeme. -/
def firstKind (lexemes : List Lexeme) : Option LexemeKind :=
  lexemes.head?.map Lexeme.kind

/-- Does an operator come first? -/
def startsWithOperator (lexemes : List Lexeme) : Bool :=
  firstKind lexemes = some .question || firstKind lexemes = some .star

/-- Where a part starts with the labels in front of it, if it starts at `start` without them. The
lexemes in front of the part come nearest first. -/
def labelStart : List Lexeme → List Lexeme → Nat → Nat
  | ⟨.colon, _, _⟩ :: label :: before, after, start =>
    if startsWithOperator after then start else labelStart before after label.span.start
  | ⟨.openParen, _, _⟩ :: before, ⟨.closeParen, _, _⟩ :: after, start =>
    labelStart before after start
  | _, _, start => start

/-- A lexeme's span from its outermost label on. -/
def labeledSpan (before after : List Lexeme) (span : Span) : Span :=
  ⟨labelStart before after span.start, span.stop⟩

/-- The part that a lexeme stands for by itself: a literal for a terminal and an identifier for a
non-terminal, unless it names a production or a label. -/
def leafPart? (before : List Lexeme) (lexeme : Lexeme) (after : List Lexeme) : Option Part :=
  match lexeme.kind with
  | .literal => some (.terminal (labeledSpan before after lexeme.span) lexeme.text none)
  | .ident =>
    if firstKind after = some .eq ∨ firstKind after = some .colon then none
    else some (.nonTerminal (labeledSpan before after lexeme.span) lexeme.text none)
  | _ => none

/-- The parts that lexemes stand for, in their order; `before` are the lexemes in front of them,
nearest first. -/
def leafParts (before : List Lexeme) : List Lexeme → List Part
  | [] => []
  | lexeme :: after =>
    (leafPart? before lexeme after).toList ++ leafParts (lexeme :: before) after

/-! ## What stands around a part -/

/-- Nothing in front of what stands between `before` and `after` is a label of it. -/
def Unlabeled (before after : List Lexeme) : Prop :=
  ∀ start, labelStart before after start = start

/-- What comes next neither makes the lexeme in front of it a name nor applies to it. -/
def Detached (after : List Lexeme) : Prop :=
  ∀ kind ∈ firstKind after, kind ≠ .eq ∧ kind ≠ .colon ∧ kind ≠ .question ∧ kind ≠ .star

/-- What is written in front is no label: no colon comes nearest. -/
def NoLabel (before : List Lexeme) : Prop :=
  firstKind before ≠ some .colon

theorem Leads.firstKind {lexemes : List Lexeme} (h : Leads lexemes) (more : List Lexeme) :
    ∃ kind, firstKind (lexemes ++ more) = some kind ∧
      (kind = .openParen ∨ kind = .ident ∨ kind = .literal) := by
  obtain ⟨spans, first, rest, rfl, hfirst⟩ := h
  cases spans with
  | nil => exact ⟨first.kind, rfl, Or.inr hfirst⟩
  | cons span spans => exact ⟨.openParen, rfl, Or.inl rfl⟩

theorem Detached.of_leads {lexemes : List Lexeme} (h : Leads lexemes) (more : List Lexeme) :
    Detached (lexemes ++ more) := by
  obtain ⟨kind, hkind, hcases⟩ := h.firstKind more
  rw [Detached, hkind]
  rintro _ ⟨⟩
  rcases hcases with rfl | rfl | rfl <;> decide

theorem Detached.not_operator {after : List Lexeme} (h : Detached after) :
    startsWithOperator after = false := by
  rw [startsWithOperator, Bool.or_eq_false_iff, decide_eq_false_iff_not, decide_eq_false_iff_not]
  exact ⟨fun hkind => (h _ hkind).2.2.1 rfl, fun hkind => (h _ hkind).2.2.2 rfl⟩

/-- A label is one of what an operator makes, and so of nothing in front of the operator. -/
theorem Unlabeled.of_operator {after : List Lexeme} (h : startsWithOperator after = true)
    (before : List Lexeme) : Unlabeled before after := by
  intro start
  unfold labelStart
  split
  · rw [if_pos h]
  · cases h
  · rfl

/-- Between what is no label and what does not close, nothing is labeled. -/
theorem Unlabeled.of_noLabel {before after : List Lexeme} (hbefore : NoLabel before)
    (hafter : firstKind before = some .openParen → firstKind after ≠ some .closeParen) :
    Unlabeled before after := by
  intro start
  unfold labelStart
  split
  · exact absurd rfl hbefore
  · exact absurd rfl (hafter rfl)
  · rfl

theorem Unlabeled.parens {before after : List Lexeme} (h : Unlabeled before after)
    (opened closed : Span) : Unlabeled (openAt opened :: before) (closeAt closed :: after) :=
  h

/-! ## How a part ends -/

/-- The last lexeme is a name, a literal, a closing parenthesis or an operator. -/
def Ends (lexemes : List Lexeme) : Prop :=
  ∃ before last, lexemes = before ++ [last] ∧ last.kind ≠ .colon ∧ last.kind ≠ .openParen

namespace Ends

theorem append {lexemes : List Lexeme} (h : Ends lexemes) (front : List Lexeme) :
    Ends (front ++ lexemes) := by
  obtain ⟨before, last, rfl, hlast⟩ := h
  exact ⟨front ++ before, last, (List.append_assoc _ _ _).symm, hlast⟩

theorem cons {lexemes : List Lexeme} (h : Ends lexemes) (first : Lexeme) :
    Ends (first :: lexemes) :=
  h.append [first]

theorem close (front : List Lexeme) (closed : Span) : Ends (front ++ [closeAt closed]) :=
  ⟨front, closeAt closed, rfl, (fun h => nomatch h), (fun h => nomatch h)⟩

theorem operator (front : List Lexeme) (operator : Operator) (span : Span) :
    Ends (front ++ [operator.glyph.lexeme span]) := by
  refine ⟨front, _, rfl, ?_, ?_⟩ <;> cases operator <;> exact fun h => nomatch h

/-- What comes right behind such lexemes has no label. -/
theorem firstKind_reverse {lexemes : List Lexeme} (h : Ends lexemes) (before : List Lexeme) :
    ∃ kind, firstKind (lexemes.reverse ++ before) = some kind ∧
      kind ≠ .colon ∧ kind ≠ .openParen := by
  obtain ⟨front, last, rfl, hlast⟩ := h
  rw [List.reverse_append]
  exact ⟨last.kind, rfl, hlast⟩

theorem noLabel {lexemes : List Lexeme} (h : Ends lexemes) (before : List Lexeme) :
    NoLabel (lexemes.reverse ++ before) := by
  obtain ⟨kind, hkind, hcolon, -⟩ := h.firstKind_reverse before
  rw [NoLabel, hkind]
  exact fun hsome => hcolon (Option.some.inj hsome)

theorem unlabeled {lexemes : List Lexeme} (h : Ends lexemes) (before after : List Lexeme) :
    Unlabeled (lexemes.reverse ++ before) after := by
  obtain ⟨kind, hkind, -, hopen⟩ := h.firstKind_reverse before
  refine .of_noLabel (h.noLabel before) fun hsome => ?_
  rw [hkind] at hsome
  exact absurd (Option.some.inj hsome) hopen

end Ends

theorem ends_part (part : WrittenPart) : Ends part.lexemes := by
  cases part with
  | leaf leaf =>
      refine ⟨[], leaf.lexeme, rfl, ?_, ?_⟩ <;> cases leaf <;> intro h <;> cases h
  | repeated leaf operator span => exact Ends.operator [leaf.lexeme] operator span
  | labeled _ _ _ part => exact ((ends_part part).cons _).cons _
  | group _ choices closed => exact (Ends.close choices.lexemes closed).cons _
  | postfixed opened choices closed operator span =>
      have h := Ends.operator (openAt opened :: (choices.lexemes ++ [closeAt closed])) operator span
      rw [List.cons_append, List.append_assoc] at h
      exact h
  | parens _ part closed => exact (Ends.close part.lexemes closed).cons _

/-! ## The leaves of one part -/

/-- The leaves of a part that stands between `before` and `after`: if it is a leaf itself, it
starts at its outermost label. -/
def Part.leavesBetween (before after : List Lexeme) : Part → List Part
  | .terminal span image code => [.terminal (labeledSpan before after span) image code]
  | .nonTerminal span name code => [.nonTerminal (labeledSpan before after span) name code]
  | .composite _ _ choices _ => choicesLeaves choices

theorem leavesBetween_of_unlabeled {before after : List Lexeme} (h : Unlabeled before after)
    (part : Part) : part.leavesBetween before after = part.leaves := by
  have hspan : ∀ span, labeledSpan before after span = span :=
    fun span => by rw [labeledSpan, h span.start]
  cases part with
  | terminal span image code => rw [Part.leavesBetween, hspan, Part.leaves]
  | nonTerminal span name code => rw [Part.leavesBetween, hspan, Part.leaves]
  | composite _ _ _ _ => rfl

/-- A label is the start of the part that it names, unless a further label stands in front. -/
theorem leavesBetween_label {before after : List Lexeme} (hafter : Detached after) (label : Lexeme)
    (colon : Span) {part : Part} (hstart : label.span.start ≤ part.span.start)
    (hstop : label.span.stop ≤ part.span.stop) :
    part.leavesBetween (Glyph.colon.lexeme colon :: label :: before) after =
      (part.withSpan (label.span.cover part.span)).leavesBetween before after := by
  have hlabel : ∀ start, labelStart (Glyph.colon.lexeme colon :: label :: before) after start =
      labelStart before after label.span.start := by
    intro start
    refine (if_neg ?_)
    rw [hafter.not_operator]
    exact Bool.false_ne_true
  have hspan : labeledSpan (Glyph.colon.lexeme colon :: label :: before) after part.span =
      labeledSpan before after (label.span.cover part.span) := by
    rw [labeledSpan, hlabel, labeledSpan, Span.cover, Nat.min_eq_left hstart,
      Nat.max_eq_right hstop]
  cases part with
  | terminal span image code => exact congrArg (fun s => [Part.terminal s image code]) hspan
  | nonTerminal span name code => exact congrArg (fun s => [Part.nonTerminal s name code]) hspan
  | composite _ _ _ _ => rfl

/-- A leaf stands for itself if no name or label is made of it. -/
theorem leafParts_leaf (leaf : Leaf) (before after : List Lexeme)
    (heq : firstKind after ≠ some .eq) (hcolon : firstKind after ≠ some .colon) :
    leafParts before (leaf.lexeme :: after) =
      leaf.part.leavesBetween before after ++ leafParts (leaf.lexeme :: before) after := by
  cases leaf with
  | nonTerminal span name =>
      have hleaf : leafPart? before (Leaf.nonTerminal span name).lexeme after =
          some (.nonTerminal (labeledSpan before after span) name none) :=
        if_neg fun h => h.elim heq hcolon
      rw [leafParts, hleaf]
      rfl
  | terminal span image => rfl

/-! ## The leaves of a body -/

theorem noLabel_openAt (opened : Span) (before : List Lexeme) :
    NoLabel (openAt opened :: before) :=
  fun h => nomatch h

theorem detached_closeAt (closed : Span) (after : List Lexeme) :
    Detached (closeAt closed :: after) := by
  rintro _ ⟨⟩
  exact ⟨nofun, nofun, nofun, nofun⟩

theorem detached_bar (bar : Span) (after : List Lexeme) :
    Detached (Glyph.pipe.lexeme bar :: after) := by
  rintro _ ⟨⟩
  exact ⟨nofun, nofun, nofun, nofun⟩

theorem leavesBetween_parens (part : Part) (before after : List Lexeme) (opened closed : Span) :
    part.leavesBetween (openAt opened :: before) (closeAt closed :: after) =
      part.leavesBetween before after := by
  cases part <;> rfl

theorem InOrder.inside {opened : Lexeme} {inner more : List Lexeme}
    (h : InOrder ((opened :: (inner ++ more)).map Lexeme.span)) :
    InOrder (inner.map Lexeme.span) :=
  h.sublist (((List.sublist_append_left inner more).cons opened).map Lexeme.span)

/-- The lexemes between two parentheses, read from the opening one to what follows the closing
one. -/
theorem leafParts_parens {before after inner : List Lexeme} {opened closed : Span}
    {leaves : List Part}
    (h : leafParts (openAt opened :: before) (inner ++ closeAt closed :: after) =
      leaves ++ leafParts (inner.reverse ++ openAt opened :: before) (closeAt closed :: after)) :
    leafParts before (openAt opened :: (inner ++ [closeAt closed]) ++ after) =
      leaves ++ leafParts ((openAt opened :: (inner ++ [closeAt closed])).reverse ++ before)
        after := by
  have hfront : openAt opened :: (inner ++ [closeAt closed]) ++ after =
      openAt opened :: (inner ++ closeAt closed :: after) := by simp
  have hbehind : (openAt opened :: (inner ++ [closeAt closed])).reverse ++ before =
      closeAt closed :: (inner.reverse ++ openAt opened :: before) := by simp
  rw [hfront, hbehind]
  exact h

mutual

theorem leafParts_part : ∀ (part : WrittenPart) (opens : List Span) (before after : List Lexeme),
    part.outline.Folded → InOrder (part.lexemes.map Lexeme.span) → Detached after →
    leafParts before (part.lexemes ++ after) =
      (part.place opens).leavesBetween before after ++
        leafParts (part.lexemes.reverse ++ before) after
  | .leaf leaf, opens, before, after, _, _, hafter =>
      leafParts_leaf leaf before after (fun h => (hafter _ h).1 rfl)
        fun h => (hafter _ h).2.1 rfl
  | .repeated leaf operator operatorSpan, opens, before, after, _, _, _ => by
      -- The labels in front are those of what the operator makes, and the leaf has none.
      have hoperator : startsWithOperator (operator.glyph.lexeme operatorSpan :: after) = true := by
        cases operator <;> rfl
      have hleaf := leafParts_leaf leaf before (operator.glyph.lexeme operatorSpan :: after)
        (by cases operator <;> exact nofun) (by cases operator <;> exact nofun)
      rw [leavesBetween_of_unlabeled (Unlabeled.of_operator hoperator before)] at hleaf
      have hplace : ((WrittenPart.repeated leaf operator operatorSpan).place opens).leavesBetween
          before after = leaf.part.leaves := by
        show leaf.part.leaves ++ [] ++ [] = leaf.part.leaves
        rw [List.append_nil, List.append_nil]
      rw [hplace]
      refine hleaf.trans (congrArg _ ?_)
      cases operator <;> rfl
  | .labeled span label colon part, opens, before, after, hfolded, horder, hafter => by
      obtain ⟨hlabel, hbehind, hrest⟩ := InOrder.cons_iff.1 horder
      have hclosed := (CoverClosed.from_le span.start).and (CoverClosed.le_to span.stop)
      -- All that the part takes stands behind the label.
      obtain ⟨hstart, hstop⟩ := place_covers hclosed part []
        (List.forall_mem_nil _) fun lexeme hlexeme => by
          have hmem := List.mem_map_of_mem (f := Lexeme.span) (taken_subset_part part hlexeme)
          have hafterLabel : span.stop ≤ lexeme.span.start :=
            hbehind _ (List.mem_cons_of_mem _ hmem)
          have hnonempty := (InOrder.cons_iff.1 hrest).2.2.nonempty _ hmem
          have hlabelNonempty : span.start < span.stop := hlabel
          exact ⟨by omega, by omega⟩
      have hpart := leafParts_part part []
        (Glyph.colon.lexeme colon :: (Glyph.ident label).lexeme span :: before) after hfolded
        (InOrder.cons_iff.1 hrest).2.2 hafter
      rw [leavesBetween_label hafter ((Glyph.ident label).lexeme span) colon hstart hstop] at hpart
      refine hpart.trans (congrArg _ ?_)
      rw [WrittenPart.lexemes, List.reverse_cons, List.reverse_cons, List.append_assoc,
        List.append_assoc]
      rfl
  | .group opened choices closed, opens, before, after, hfolded, horder, _ =>
      leafParts_parens (leafParts_choices choices (opens ++ [opened]).tail _ _ hfolded.2
        (InOrder.inside horder) (noLabel_openAt opened before) (detached_closeAt closed after)
        fun outline hsingle => absurd hsingle (hfolded.1 outline))
  | .postfixed opened choices closed operator operatorSpan, opens, before, after, hfolded, horder,
      _ => by
      have hoperator : startsWithOperator (operator.glyph.lexeme operatorSpan :: after) = true := by
        cases operator <;> rfl
      have hinner : ChoicesFolded choices.outlines := by
        cases operator <;> exact hfolded
      -- Here a single part may stand in the parentheses, but labels end at the operator.
      have hchoices := leafParts_choices choices (opens ++ [opened]).tail (openAt opened :: before)
        (closeAt closed :: operator.glyph.lexeme operatorSpan :: after) hinner
        (InOrder.inside horder) (noLabel_openAt opened before) (detached_closeAt closed _)
        fun _ _ => (Unlabeled.of_operator hoperator before).parens opened closed
      have hfront : (WrittenPart.postfixed opened choices closed operator operatorSpan).lexemes ++
          after = openAt opened :: (choices.lexemes ++
            closeAt closed :: operator.glyph.lexeme operatorSpan :: after) := by
        simp [WrittenPart.lexemes]
      have hbehind : (WrittenPart.postfixed opened choices closed operator
          operatorSpan).lexemes.reverse ++ before =
            operator.glyph.lexeme operatorSpan :: closeAt closed ::
              (choices.lexemes.reverse ++ openAt opened :: before) := by
        simp [WrittenPart.lexemes]
      rw [hfront, hbehind]
      refine hchoices.trans (congrArg _ ?_)
      cases operator <;> rfl
  | .parens opened part closed, opens, before, after, hfolded, horder, _ => by
      have hpart := leafParts_part part (opens ++ [opened]) (openAt opened :: before)
        (closeAt closed :: after) hfolded (InOrder.inside horder) (detached_closeAt closed after)
      rw [leavesBetween_parens] at hpart
      exact leafParts_parens hpart

theorem leafParts_sequence : ∀ (sequence : WrittenSequence) (opens : List Span)
    (before after : List Lexeme), SequenceFolded sequence.outlines →
    InOrder (sequence.lexemes.map Lexeme.span) → NoLabel before → Detached after →
    (∀ outline, sequence.outlines = [outline] → Unlabeled before after) →
    leafParts before (sequence.lexemes ++ after) =
      sequenceLeaves (sequence.place opens) ++
        leafParts (sequence.lexemes.reverse ++ before) after
  | .one part, opens, before, after, hfolded, horder, hbefore, hafter, hsingle => by
      have hunlabeled := hsingle part.outline rfl
      have hpart := leafParts_part part opens before after hfolded.1 horder hafter
      rw [leavesBetween_of_unlabeled hunlabeled] at hpart
      have hleaves : sequenceLeaves [part.place opens] = (part.place opens).leaves :=
        List.append_nil _
      rw [WrittenSequence.place, hleaves]
      exact hpart
  | .more part rest, opens, before, after, hfolded, horder, hbefore, hafter, _ => by
      have horders : InOrder (part.lexemes.map Lexeme.span ++ rest.lexemes.map Lexeme.span) := by
        rw [← List.map_append]
        exact horder
      obtain ⟨hpartOrder, hrestOrder, -⟩ := InOrder.append_iff.1 horders
      have hleads := leads_sequence rest
      have hends := ends_part part
      -- The part is followed by one that leads, so no parenthesis closes right behind it.
      have hunlabeled : Unlabeled before (rest.lexemes ++ after) := by
        refine .of_noLabel hbefore fun _ => ?_
        obtain ⟨kind, hkind, hcases⟩ := hleads.firstKind after
        rw [hkind]
        rcases hcases with rfl | rfl | rfl <;> exact nofun
      have hpart := leafParts_part part opens before (rest.lexemes ++ after) hfolded.1 hpartOrder
        (Detached.of_leads hleads after)
      have hrest := leafParts_sequence rest [] (part.lexemes.reverse ++ before) after hfolded.2
        hrestOrder (hends.noLabel before) hafter fun _ _ => hends.unlabeled before after
      rw [leavesBetween_of_unlabeled hunlabeled, hrest] at hpart
      rw [WrittenSequence.lexemes, List.append_assoc, hpart, WrittenSequence.place,
        sequenceLeaves, List.append_assoc, List.reverse_append, List.append_assoc]
  | .parens opened sequence closed, opens, before, after, hfolded, horder, _, _, hsingle =>
      leafParts_parens (leafParts_sequence sequence (opens ++ [opened]) _ _ hfolded
        (InOrder.inside horder) (noLabel_openAt opened before) (detached_closeAt closed after)
        fun outline houtline => (hsingle outline houtline).parens opened closed)

theorem leafParts_choices : ∀ (choices : WrittenChoices) (opens : List Span)
    (before after : List Lexeme), ChoicesFolded choices.outlines →
    InOrder (choices.lexemes.map Lexeme.span) → NoLabel before → Detached after →
    (∀ outline, choices.outlines = [[outline]] → Unlabeled before after) →
    leafParts before (choices.lexemes ++ after) =
      choicesLeaves (choices.place opens) ++
        leafParts (choices.lexemes.reverse ++ before) after
  | .one sequence, opens, before, after, hfolded, horder, hbefore, hafter, hsingle => by
      have hsequence := leafParts_sequence sequence opens before after hfolded.1 horder hbefore
        hafter fun outline houtline => hsingle outline (congrArg (fun s => [s]) houtline)
      have hleaves : choicesLeaves [sequence.place opens] =
          sequenceLeaves (sequence.place opens) := List.append_nil _
      rw [WrittenChoices.place, hleaves]
      exact hsequence
  | .more sequence bar rest, opens, before, after, hfolded, horder, hbefore, hafter, _ => by
      have horders : InOrder (sequence.lexemes.map Lexeme.span ++
          (Glyph.pipe.lexeme bar :: rest.lexemes).map Lexeme.span) := by
        rw [← List.map_append]
        exact horder
      obtain ⟨hsequenceOrder, hbarOrder, -⟩ := InOrder.append_iff.1 horders
      -- A bar is neither a colon nor a parenthesis, on whichever side it stands.
      have hsequence := leafParts_sequence sequence opens before
        (Glyph.pipe.lexeme bar :: (rest.lexemes ++ after)) hfolded.1 hsequenceOrder hbefore
        (detached_bar bar _) fun _ _ => .of_noLabel hbefore fun _ => nofun
      have hrest := leafParts_choices rest []
        (Glyph.pipe.lexeme bar :: (sequence.lexemes.reverse ++ before)) after hfolded.2
        (InOrder.cons_iff.1 hbarOrder).2.2 nofun hafter fun _ _ => .of_noLabel nofun nofun
      have hbar : leafParts (sequence.lexemes.reverse ++ before)
          (Glyph.pipe.lexeme bar :: (rest.lexemes ++ after)) =
            leafParts (Glyph.pipe.lexeme bar :: (sequence.lexemes.reverse ++ before))
              (rest.lexemes ++ after) := rfl
      rw [hbar, hrest] at hsequence
      rw [WrittenChoices.lexemes, List.append_assoc, List.cons_append, hsequence,
        WrittenChoices.place, choicesLeaves, List.append_assoc, List.reverse_append,
        List.reverse_cons, List.append_assoc, List.append_assoc]
      rfl
  | .parens opened choices closed, opens, before, after, hfolded, horder, _, _, hsingle =>
      leafParts_parens (leafParts_choices choices (opens ++ [opened]) _ _ hfolded
        (InOrder.inside horder) (noLabel_openAt opened before) (detached_closeAt closed after)
        fun outline houtline => (hsingle outline houtline).parens opened closed)

end

/-! ## The leaves of all productions -/

theorem detached_writtenLexemes (productions : List WrittenProduction) :
    Detached (writtenLexemes productions) := by
  cases productions with
  | nil => exact nofun
  | cons production productions =>
      rintro _ ⟨⟩
      exact ⟨nofun, nofun, nofun, nofun⟩

/-- The name of a production and its equals sign stand for no part. -/
theorem leafParts_writtenLexemes {productions : List WrittenProduction}
    (hfolded : ∀ production ∈ productions, ChoicesFolded production.choices.outlines)
    (horder : InOrder ((writtenLexemes productions).map Lexeme.span)) (before : List Lexeme) :
    leafParts before (writtenLexemes productions) =
      productions.flatMap fun production => production.place.leaves := by
  induction productions generalizing before with
  | nil => rfl
  | cons production others ih =>
      obtain ⟨hfirst, hothers⟩ := List.forall_mem_cons.1 hfolded
      have hlexemes : writtenLexemes (production :: others) =
          (Glyph.ident production.name).lexeme production.nameSpan ::
            Glyph.eq.lexeme production.eqSpan ::
              (production.choices.lexemes ++ writtenLexemes others) := rfl
      rw [hlexemes] at horder ⊢
      obtain ⟨-, -, hbehindName⟩ := InOrder.cons_iff.1 horder
      obtain ⟨-, -, hbody⟩ := InOrder.cons_iff.1 hbehindName
      rw [List.map_append] at hbody
      obtain ⟨hchoicesOrder, hothersOrder, -⟩ := InOrder.append_iff.1 hbody
      have hchoices := leafParts_choices production.choices []
        (Glyph.eq.lexeme production.eqSpan ::
          (Glyph.ident production.name).lexeme production.nameSpan :: before)
        (writtenLexemes others) hfirst hchoicesOrder nofun (detached_writtenLexemes others)
        fun _ _ => .of_noLabel nofun nofun
      rw [ih hothers hothersOrder] at hchoices
      exact hchoices

theorem TextWritten.leaves {text : String} {definitions : List Definition} {lexemes : Lexemes}
    {productions : List WrittenProduction}
    (h : TextWritten text definitions lexemes productions) :
    (productions.map WrittenProduction.place).flatMap Production.leaves =
      leafParts [] lexemes.lexemes := by
  have horder := (inOrder_of_tokenize h.tokenize).1
  have hfolded : ∀ production ∈ productions, ChoicesFolded production.choices.outlines := by
    intro production hproduction
    obtain ⟨definition, -, hfor⟩ := exists_mem_of_forall₂ h.writtenFor hproduction
    rw [← hfor.outlines]
    exact (views_folded definition.rule hfor.folded).choices
  rw [h.lexemes_eq] at horder ⊢
  rw [leafParts_writtenLexemes hfolded horder, List.flatMap_map]

/-- Every literal is a terminal. -/
theorem exists_terminal_of_literal {lexemes : List Lexeme} {lexeme : Lexeme}
    (h : lexeme ∈ lexemes) (hkind : lexeme.kind = .literal) (before : List Lexeme) :
    ∃ span, Part.terminal span lexeme.text none ∈ leafParts before lexemes := by
  induction lexemes generalizing before with
  | nil => exact absurd h List.not_mem_nil
  | cons first rest ih =>
      rw [leafParts]
      rcases List.mem_cons.1 h with rfl | hrest
      · refine ⟨labeledSpan before rest lexeme.span, List.mem_append_left _ ?_⟩
        rw [leafPart?, hkind]
        exact List.mem_singleton.2 rfl
      · obtain ⟨span, hspan⟩ := ih hrest (first :: before)
        exact ⟨span, List.mem_append_right _ hspan⟩

/-- **The leaves of a grammar are its names and literals**: from left to right, each literal and
each identifier that names neither a production nor a label is one, and there is no other. -/
theorem ofText_leaves {text : String} {grammar : Grammar}
    (h : Grammar.ofText text = .ok grammar) : ∃ lexemes, tokenize text = .ok lexemes ∧
      grammar.productions.flatMap Production.leaves = leafParts [] lexemes.lexemes := by
  obtain ⟨definitions, lexemes, productions, hwritten, rfl⟩ := exists_written_of_ofText h
  exact ⟨lexemes, hwritten.tokenize, hwritten.leaves⟩

/-- Labels of a leaf, of a leaf in redundant parentheses, of what an operator makes, and of a
group. -/
theorem ofText_leaves_labeled : ∃ grammar lexemes,
    Grammar.ofText "A = x:y:A z:(('b')) u:A? v:(A A)" = .ok grammar ∧
      tokenize "A = x:y:A z:(('b')) u:A? v:(A A)" = .ok lexemes ∧
      grammar.productions.flatMap Production.leaves = leafParts [] lexemes.lexemes ∧
      leafParts [] lexemes.lexemes =
        [.nonTerminal ⟨4, 9⟩ "A" none, .terminal ⟨10, 17⟩ "b" none,
          .nonTerminal ⟨22, 23⟩ "A" none, .nonTerminal ⟨28, 29⟩ "A" none,
          .nonTerminal ⟨30, 31⟩ "A" none] := by
  have hread : Grammar.ofText "A = x:y:A z:(('b')) u:A? v:(A A)" = .ok ⟨[⟨"A", ⟨0, 32⟩, .choices
      [[.nonTerminal ⟨4, 9⟩ "A" none, .terminal ⟨10, 17⟩ "b" none,
        .composite ⟨20, 24⟩ .optional [[.nonTerminal ⟨22, 23⟩ "A" none]] none,
        .composite ⟨25, 32⟩ .once [[.nonTerminal ⟨28, 29⟩ "A" none,
          .nonTerminal ⟨30, 31⟩ "A" none]] none]]⟩], []⟩ := by cbv
  obtain ⟨lexemes, htokenize, hleaves⟩ := ofText_leaves hread
  exact ⟨_, lexemes, hread, htokenize, hleaves, hleaves.symm⟩

end TreeSmith

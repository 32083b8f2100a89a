import TreeSmith.Proofs.Written.Basic

/-!
# TreeSmith.Proofs.Written.Walk

**The cursor follows what is written.** Walking the lexemes of a written body in step with its
outline succeeds, whatever stands behind it: the parts get the spans of `place`, the closing
parentheses of `trailing` are left over, and no opening one is kept (`locateChoices_written`).
From body to body this gives all productions of a text (`locateAll_written`).

A part need not be walked from its first parenthesis on: the part around it may have skipped some
of them already. The statements therefore start at any cursor that is the same as the start of the
part once punctuation is skipped.
-/

namespace TreeSmith

/-! ## Skipping punctuation -/

/-- The cursor behind the punctuation that comes next. -/
def Cursor.skipped (cursor : Cursor) : Cursor :=
  skipPunctuation cursor.opens cursor.rest

@[simp] theorem skipPunctuation_openAt (opens : List Span) (span : Span) (rest : List Lexeme) :
    skipPunctuation opens (openAt span :: rest) = skipPunctuation (opens ++ [span]) rest := rfl

@[simp] theorem skipPunctuation_bar (opens : List Span) (span : Span) (rest : List Lexeme) :
    skipPunctuation opens (Glyph.pipe.lexeme span :: rest) = skipPunctuation [] rest := rfl

theorem skipPunctuation_parens (opens : List Span) (opened : Span) (inner : List Lexeme)
    (closed : Span) (behind rest : List Lexeme) :
    skipPunctuation opens (openAt opened :: (inner ++ closeAt closed :: behind) ++ rest) =
      skipPunctuation (opens ++ [opened]) (inner ++ closeAt closed :: (behind ++ rest)) := by
  rw [List.cons_append, skipPunctuation_openAt, List.append_assoc]
  rfl

@[simp] theorem skipPunctuation_leaf (opens : List Span) (leaf : Leaf) (rest : List Lexeme) :
    skipPunctuation opens (leaf.lexeme :: rest) = ⟨leaf.lexeme :: rest, opens⟩ := by
  cases leaf <;> rfl

@[simp] theorem skipPunctuation_closeAt (spans : List Span) (rest : List Lexeme) :
    skipPunctuation [] (spans.map closeAt ++ rest) = skipPunctuation [] rest := by
  induction spans with
  | nil => rfl
  | cons span spans ih => exact ih

/-- Skipping a second time skips nothing. -/
theorem skipped_skipped (cursor : Cursor) : cursor.skipped.skipped = cursor.skipped := by
  obtain ⟨rest, opens⟩ := cursor
  simp only [Cursor.skipped]
  fun_induction skipPunctuation opens rest with
  | case1 => rfl
  | case2 opens lexeme rest _ ih => exact ih
  | case3 opens lexeme rest _ ih => exact ih
  | case4 opens lexeme rest _ ih => exact ih
  | case5 opens lexeme rest h1 h2 h3 =>
      rw [skipPunctuation]
      split <;> first | rfl | contradiction

/-- Nothing but opening parentheses stands in front of the first name or literal. -/
def Leads (lexemes : List Lexeme) : Prop :=
  ∃ (spans : List Span) (first : Lexeme) (rest : List Lexeme),
    lexemes = spans.map openAt ++ first :: rest ∧ (first.kind = .ident ∨ first.kind = .literal)

namespace Leads

theorem ident (name : String) (span : Span) (rest : List Lexeme) :
    Leads ((Glyph.ident name).lexeme span :: rest) :=
  ⟨[], _, rest, rfl, Or.inl rfl⟩

theorem leaf (leaf : Leaf) (rest : List Lexeme) : Leads (leaf.lexeme :: rest) := by
  cases leaf with
  | nonTerminal span name => exact ⟨[], _, rest, rfl, Or.inl rfl⟩
  | terminal span image => exact ⟨[], _, rest, rfl, Or.inr rfl⟩

theorem openAt {lexemes : List Lexeme} (h : Leads lexemes) (span : Span) :
    Leads (TreeSmith.openAt span :: lexemes) := by
  obtain ⟨spans, first, rest, rfl, hfirst⟩ := h
  exact ⟨span :: spans, first, rest, rfl, hfirst⟩

theorem append {lexemes : List Lexeme} (h : Leads lexemes) (more : List Lexeme) :
    Leads (lexemes ++ more) := by
  obtain ⟨spans, first, rest, rfl, hfirst⟩ := h
  exact ⟨spans, first, rest ++ more, by simp, hfirst⟩

/-- Parentheses kept from before stay in front of those that are skipped. -/
theorem skipPunctuation_append {lexemes : List Lexeme} (h : Leads lexemes)
    (before opens : List Span) :
    skipPunctuation (before ++ opens) lexemes =
      ⟨(skipPunctuation opens lexemes).rest,
        before ++ (skipPunctuation opens lexemes).opens⟩ := by
  obtain ⟨spans, first, rest, rfl, hfirst⟩ := h
  induction spans generalizing opens with
  | nil =>
      have hskip : ∀ kept, skipPunctuation kept (first :: rest) = ⟨first :: rest, kept⟩ := by
        intro kept
        rcases hfirst with hfirst | hfirst <;> simp [skipPunctuation, hfirst]
      simp [hskip]
  | cons span spans ih =>
      have hsplit := ih (opens ++ [span])
      rw [← List.append_assoc] at hsplit
      exact hsplit

end Leads

mutual

theorem leads_part : ∀ part : WrittenPart, Leads part.lexemes
  | .leaf leaf => Leads.leaf leaf []
  | .repeated leaf _ _ => Leads.leaf leaf _
  | .labeled span label _ _ => Leads.ident label span _
  | .group opened choices _ => ((leads_choices choices).append _).openAt opened
  | .postfixed opened choices _ _ _ => ((leads_choices choices).append _).openAt opened
  | .parens opened part _ => ((leads_part part).append _).openAt opened

theorem leads_sequence : ∀ sequence : WrittenSequence, Leads sequence.lexemes
  | .one part => leads_part part
  | .more part _ => (leads_part part).append _
  | .parens opened sequence _ => ((leads_sequence sequence).append _).openAt opened

theorem leads_choices : ∀ choices : WrittenChoices, Leads choices.lexemes
  | .one sequence => leads_sequence sequence
  | .more sequence _ _ => (leads_sequence sequence).append _
  | .parens opened choices _ => ((leads_choices choices).append _).openAt opened

end

/-! ## One step of the cursor -/

namespace Walk

variable {α β : Type}

theorem run_bind_of_ok {walk : Walk α} {next : α → Walk β} {cursor between : Cursor} {a : α}
    (h : walk.run cursor = .ok (a, between)) :
    (walk >>= next).run cursor = (next a).run between := by
  rw [StateT.run_bind, h]
  rfl

theorem run_skip_bind (next : Unit → Walk β) (cursor : Cursor) :
    (skip >>= next).run cursor = (next ()).run cursor.skipped :=
  run_bind_of_ok rfl

theorem run_expect (glyph : Glyph) (expected : String) (span : Span) (rest : List Lexeme)
    (opens : List Span) :
    (expect glyph.kind expected).run ⟨glyph.lexeme span :: rest, opens⟩ =
      .ok (glyph.lexeme span, ⟨rest, opens⟩) := by
  have hkind : (glyph.lexeme span).kind = glyph.kind := rfl
  refine (run_bind_of_ok rfl).trans ?_
  simp only [hkind, if_true]
  rfl

theorem run_leaf (glyph : Glyph) (span : Span) (rest : List Lexeme) (opens : List Span) :
    (leaf glyph.kind glyph.text).run ⟨glyph.lexeme span :: rest, opens⟩ =
      .ok (glyph.lexeme span, ⟨rest, []⟩) := by
  have htext : (glyph.lexeme span).text = glyph.text := rfl
  refine (run_bind_of_ok rfl).trans ((run_bind_of_ok (run_expect glyph _ span rest [])).trans ?_)
  simp only [htext, if_true]
  rfl

theorem run_takeOpen (rest : List Lexeme) (opens : List Span) :
    takeOpen.run ⟨rest, opens⟩ = .ok (opens.head?, ⟨rest, opens.tail⟩) := by
  cases opens <;> rfl

theorem run_expectPostfix (operator : Operator) (expected : String) (closed : List Span)
    (span : Span) (rest : List Lexeme) (opens : List Span) :
    (expectPostfix operator.glyph.kind expected).run
        ⟨closed.map closeAt ++ operator.glyph.lexeme span :: rest, opens⟩ =
      .ok (operator.glyph.lexeme span, ⟨rest, opens⟩) := by
  have hdrop : (closed.map closeAt ++ operator.glyph.lexeme span :: rest).dropWhile
      (·.kind = .closeParen) = operator.glyph.lexeme span :: rest := by
    induction closed with
    | nil => cases operator <;> rfl
    | cons first closed ih => exact ih
  refine (run_bind_of_ok rfl).trans ?_
  simp only [hdrop]
  exact run_expect _ _ _ _ _

/-- A group closes with the first of the closing parentheses behind it, its own or not. -/
theorem run_takeClose {opened : Option Span} (h : opened.isSome) (trailing : List Span)
    (closed : Span) (rest : List Lexeme) (opens : List Span) :
    (takeClose opened).run ⟨trailing.map closeAt ++ closeAt closed :: rest, opens⟩ =
      .ok ((trailing ++ [closed]).head?,
        ⟨(trailing ++ [closed]).tail.map closeAt ++ rest, []⟩) := by
  obtain ⟨span, rfl⟩ := Option.isSome_iff_exists.1 h
  cases trailing with
  | nil => rfl
  | cons first trailing =>
      rw [List.cons_append, List.tail_cons, List.map_append, List.append_assoc]
      rfl

/-- A part with a parenthesis of its own takes the first there is and leaves the others. -/
theorem run_takeOpen_skipped {cursor : Cursor} {opens : List Span} {opened : Span}
    {lexemes : List Lexeme} (hleads : Leads lexemes)
    (h : cursor.skipped = skipPunctuation (opens ++ [opened]) lexemes) : ∃ after,
      takeOpen.run cursor.skipped = .ok ((opens ++ [opened]).head?, after) ∧
        after.skipped = skipPunctuation (opens ++ [opened]).tail lexemes := by
  obtain ⟨first, kept, hopens⟩ := exists_first opens opened
  have hskip := hleads.skipPunctuation_append [first] kept
  rw [List.singleton_append] at hskip
  rw [hopens] at h ⊢
  refine ⟨skipPunctuation kept lexemes, ?_, skipped_skipped ⟨lexemes, kept⟩⟩
  rw [h, hskip, run_takeOpen]
  rfl

end Walk

/-! ## Bodies -/

theorem locate_leaf (leaf : Leaf) (opens : List Span) (rest : List Lexeme) (cursor : Cursor)
    (h : cursor.skipped = skipPunctuation opens (leaf.lexeme :: rest)) :
    leaf.outline.locate.run cursor = .ok (leaf.part, ⟨rest, []⟩) := by
  cases leaf with
  | nonTerminal span name =>
      rw [Leaf.outline, Outline.locate, Walk.run_skip_bind, h, skipPunctuation_leaf]
      exact Walk.run_bind_of_ok (Walk.run_leaf (.ident name) span rest opens)
  | terminal span image =>
      rw [Leaf.outline, Outline.locate, Walk.run_skip_bind, h, skipPunctuation_leaf]
      exact Walk.run_bind_of_ok (Walk.run_leaf (.literal image) span rest opens)

theorem locateSequence_singleton {outline : Outline} {cursor after : Cursor} {part : Part}
    (h : outline.locate.run cursor = .ok (part, after)) :
    (locateSequence [outline]).run cursor = .ok ([part], after) := by
  rw [locateSequence, Walk.run_bind_of_ok h, locateSequence]
  rfl

theorem locateChoices_singleton {outlines : List Outline} {cursor after : Cursor}
    {sequence : Sequence} (h : (locateSequence outlines).run cursor = .ok (sequence, after)) :
    (locateChoices [outlines]).run cursor = .ok ([sequence], after) := by
  rw [locateChoices, Walk.run_bind_of_ok h, locateChoices]
  rfl

/-- What an operator applies to is walked as alternatives, and the operator behind it. -/
theorem locate_operator {operator : Operator} {outlines : List (List Outline)} {choices : Choices}
    {opened : Option Span} {cursor taken behind after : Cursor} {operatorLexeme : Lexeme}
    (hopen : Walk.takeOpen.run cursor.skipped = .ok (opened, taken))
    (hchoices : (locateChoices outlines).run taken = .ok (choices, behind))
    (hoperator : ∀ expected, (Walk.expectPostfix operator.glyph.kind expected).run behind =
      .ok (operatorLexeme, after)) :
    (operator.outline outlines).locate.run cursor =
      .ok (.composite ((coverOpen opened (choicesSpan choices)).cover operatorLexeme.span)
        operator.times choices none, after) := by
  cases operator with
  | question =>
      rw [Operator.outline, Outline.locate, Walk.run_skip_bind, Walk.run_bind_of_ok hopen,
        Walk.run_bind_of_ok hchoices]
      exact Walk.run_bind_of_ok (hoperator _)
  | star =>
      rw [Operator.outline, Outline.locate, Walk.run_skip_bind, Walk.run_bind_of_ok hopen,
        Walk.run_bind_of_ok hchoices]
      exact Walk.run_bind_of_ok (hoperator _)

mutual

/-- The cursor follows a part. -/
theorem locate_written : ∀ (part : WrittenPart) (opens : List Span) (rest : List Lexeme)
    (cursor : Cursor), cursor.skipped = skipPunctuation opens (part.lexemes ++ rest) →
    part.outline.locate.run cursor =
      .ok (part.place opens, ⟨part.trailing.map closeAt ++ rest, []⟩)
  | .leaf leaf, opens, rest, cursor, h => locate_leaf leaf opens rest cursor h
  | .repeated leaf operator operatorSpan, opens, rest, cursor, h => by
      -- The first of the parentheses in front is taken before the leaf is walked.
      have hskip : cursor.skipped =
          ⟨leaf.lexeme :: operator.glyph.lexeme operatorSpan :: rest, opens⟩ :=
        h.trans (skipPunctuation_leaf opens leaf _)
      have hopen : Walk.takeOpen.run cursor.skipped = .ok (opens.head?,
          ⟨leaf.lexeme :: operator.glyph.lexeme operatorSpan :: rest, opens.tail⟩) := by
        rw [hskip, Walk.run_takeOpen]
      have hleaf := locate_leaf leaf opens.tail (operator.glyph.lexeme operatorSpan :: rest)
        ⟨leaf.lexeme :: operator.glyph.lexeme operatorSpan :: rest, opens.tail⟩ rfl
      have hspan : choicesSpan [[leaf.part]] = leaf.span := leaf.span_part
      rw [WrittenPart.outline, WrittenPart.place, ← hspan]
      exact locate_operator hopen (locateChoices_singleton (locateSequence_singleton hleaf))
        fun expected => Walk.run_expectPostfix operator expected [] operatorSpan rest []
  | .labeled span label colon part, opens, rest, cursor, h => by
      -- The label takes what is in front of it: its part is walked behind no parenthesis.
      have hlabel : (Walk.leaf .ident label).run cursor.skipped =
          .ok ((Glyph.ident label).lexeme span,
            ⟨Glyph.colon.lexeme colon :: (part.lexemes ++ rest), []⟩) := by
        rw [h]
        exact Walk.run_leaf (.ident label) span _ opens
      have hcolon : (Walk.expect .colon "`:`").run
          ⟨Glyph.colon.lexeme colon :: (part.lexemes ++ rest), []⟩ =
            .ok (Glyph.colon.lexeme colon, ⟨part.lexemes ++ rest, []⟩) :=
        Walk.run_expect .colon _ colon _ []
      have hpart := locate_written part [] rest ⟨part.lexemes ++ rest, []⟩ rfl
      rw [WrittenPart.outline, Outline.locate, Walk.run_skip_bind, Walk.run_bind_of_ok hlabel,
        Walk.run_bind_of_ok hcolon, Walk.run_bind_of_ok hpart]
      rfl
  | .group opened choices closed, opens, rest, cursor, h => by
      -- The parenthesis that a group takes need not be its own, and neither the one it closes with.
      rw [WrittenPart.lexemes, skipPunctuation_parens] at h
      obtain ⟨taken, hopen, htaken⟩ :=
        Walk.run_takeOpen_skipped ((leads_choices choices).append _) h
      have hchoices := locateChoices_written choices _ _ taken htaken
      have hsome : (opens ++ [opened]).head?.isSome := by simp
      have hclose := Walk.run_takeClose hsome choices.trailing closed rest []
      rw [WrittenPart.outline, Outline.locate, Walk.run_skip_bind, Walk.run_bind_of_ok hopen,
        Walk.run_bind_of_ok hchoices, List.nil_append, Walk.run_bind_of_ok hclose]
      rfl
  | .postfixed opened choices closed operator operatorSpan, opens, rest, cursor, h => by
      rw [WrittenPart.lexemes, skipPunctuation_parens] at h
      obtain ⟨taken, hopen, htaken⟩ :=
        Walk.run_takeOpen_skipped ((leads_choices choices).append _) h
      have hchoices := locateChoices_written choices _ _ taken htaken
      -- All closing parentheses up to the operator are dropped.
      have hoperator : ∀ expected, (Walk.expectPostfix operator.glyph.kind expected).run
          ⟨choices.trailing.map closeAt ++ closeAt closed ::
            operator.glyph.lexeme operatorSpan :: rest, []⟩ =
              .ok (operator.glyph.lexeme operatorSpan, ⟨rest, []⟩) := by
        intro expected
        have hrun := Walk.run_expectPostfix operator expected (choices.trailing ++ [closed])
          operatorSpan rest []
        rw [List.map_append, List.append_assoc] at hrun
        exact hrun
      rw [WrittenPart.outline]
      exact locate_operator hopen hchoices hoperator
  | .parens opened part closed, opens, rest, cursor, h => by
      rw [WrittenPart.lexemes, skipPunctuation_parens] at h
      rw [WrittenPart.outline, locate_written part _ _ cursor h, WrittenPart.place,
        WrittenPart.trailing, List.map_append, List.append_assoc]
      rfl

/-- The cursor follows a sequence. -/
theorem locateSequence_written : ∀ (sequence : WrittenSequence) (opens : List Span)
    (rest : List Lexeme) (cursor : Cursor),
    cursor.skipped = skipPunctuation opens (sequence.lexemes ++ rest) →
    (locateSequence sequence.outlines).run cursor =
      .ok (sequence.place opens, ⟨sequence.trailing.map closeAt ++ rest, []⟩)
  | .one part, opens, rest, cursor, h =>
      locateSequence_singleton (locate_written part opens rest cursor h)
  | .more part others, opens, rest, cursor, h => by
      -- What the part leaves over is skipped in front of the next one.
      rw [WrittenSequence.lexemes, List.append_assoc] at h
      have hpart := locate_written part opens (others.lexemes ++ rest) cursor h
      have hothers := locateSequence_written others [] rest
        ⟨part.trailing.map closeAt ++ (others.lexemes ++ rest), []⟩
        (skipPunctuation_closeAt _ _)
      rw [WrittenSequence.outlines, locateSequence, Walk.run_bind_of_ok hpart,
        Walk.run_bind_of_ok hothers]
      rfl
  | .parens opened sequence closed, opens, rest, cursor, h => by
      rw [WrittenSequence.lexemes, skipPunctuation_parens] at h
      rw [WrittenSequence.outlines, locateSequence_written sequence _ _ cursor h,
        WrittenSequence.place, WrittenSequence.trailing, List.map_append, List.append_assoc]
      rfl

/-- The cursor follows alternatives. -/
theorem locateChoices_written : ∀ (choices : WrittenChoices) (opens : List Span)
    (rest : List Lexeme) (cursor : Cursor),
    cursor.skipped = skipPunctuation opens (choices.lexemes ++ rest) →
    (locateChoices choices.outlines).run cursor =
      .ok (choices.place opens, ⟨choices.trailing.map closeAt ++ rest, []⟩)
  | .one sequence, opens, rest, cursor, h =>
      locateChoices_singleton (locateSequence_written sequence opens rest cursor h)
  | .more sequence bar others, opens, rest, cursor, h => by
      -- So is what an alternative leaves over, with the bar behind it.
      rw [WrittenChoices.lexemes, List.append_assoc] at h
      have hsequence := locateSequence_written sequence opens
        (Glyph.pipe.lexeme bar :: (others.lexemes ++ rest)) cursor h
      have hothers := locateChoices_written others [] rest
        ⟨sequence.trailing.map closeAt ++ Glyph.pipe.lexeme bar :: (others.lexemes ++ rest), []⟩
        ((skipPunctuation_closeAt _ _).trans (skipPunctuation_bar _ _ _))
      rw [WrittenChoices.outlines, locateChoices, Walk.run_bind_of_ok hsequence,
        Walk.run_bind_of_ok hothers]
      rfl
  | .parens opened choices closed, opens, rest, cursor, h => by
      rw [WrittenChoices.lexemes, skipPunctuation_parens] at h
      rw [WrittenChoices.outlines, locateChoices_written choices _ _ cursor h,
        WrittenChoices.place, WrittenChoices.trailing, List.map_append, List.append_assoc]
      rfl

end

/-! ## Productions -/

/-- Do the definitions give the production's name what is written behind it? -/
def DefinedAsWritten (definitions : List Definition) (production : WrittenProduction) : Prop :=
  ∃ rule, ruleOf? definitions production.name = some rule ∧
    rule.views.choices = production.choices.outlines

/-- The cursor follows a production that is defined as it is written. -/
theorem locateProduction_written {definitions : List Definition} {production : WrittenProduction}
    (h : DefinedAsWritten definitions production) (rest : List Lexeme) :
    (locateProduction definitions).run ⟨production.lexemes ++ rest, []⟩ =
      .ok (production.place, ⟨production.choices.trailing.map closeAt ++ rest, []⟩) := by
  obtain ⟨rule, hrule, hviews⟩ := h
  have hname : (Walk.expect .ident "production name").run ⟨production.lexemes ++ rest, []⟩ =
      .ok ((Glyph.ident production.name).lexeme production.nameSpan,
        ⟨Glyph.eq.lexeme production.eqSpan :: (production.choices.lexemes ++ rest), []⟩) :=
    Walk.run_expect (.ident production.name) _ _ _ _
  have heq : (Walk.expect .eq "`=`").run
      ⟨Glyph.eq.lexeme production.eqSpan :: (production.choices.lexemes ++ rest), []⟩ =
        .ok (Glyph.eq.lexeme production.eqSpan, ⟨production.choices.lexemes ++ rest, []⟩) :=
    Walk.run_expect .eq _ _ _ _
  have hchoices := locateChoices_written production.choices [] rest
    ⟨production.choices.lexemes ++ rest, []⟩ rfl
  have htext : ((Glyph.ident production.name).lexeme production.nameSpan).text =
      production.name := rfl
  refine (Walk.run_bind_of_ok rfl).trans ?_
  rw [Walk.run_bind_of_ok hname, Walk.run_bind_of_ok heq, htext, hrule]
  simp only
  rw [hviews, Walk.run_bind_of_ok hchoices]
  rfl

/-- What the walk over all productions gives, read off its next production. -/
theorem locateAll_eq (definitions : List Definition) (cursor : Cursor) :
    locateAll definitions cursor =
      if cursor.skipped.rest.isEmpty then .ok []
      else match (locateProduction definitions).run cursor.skipped with
        | .error e => .error e
        | .ok (production, after) => (locateAll definitions after).map (production :: ·) := by
  rw [locateAll]
  by_cases hend : cursor.skipped.rest.isEmpty = true
  · rw [if_pos hend]
    exact if_pos hend
  · rw [if_neg hend]
    refine (if_neg hend).trans ?_
    split
    · rename_i hrun
      rw [Cursor.skipped, hrun]
    · rename_i production after hrun
      rw [Cursor.skipped, hrun]
      simp only
      cases locateAll definitions after <;> rfl

/-- **The cursor follows what is written**: walking the lexemes of productions that are defined as
they are written gives each of them with its spans, in the order of the lexemes. -/
theorem locateAll_written {definitions : List Definition} {productions : List WrittenProduction}
    (h : ∀ production ∈ productions, DefinedAsWritten definitions production)
    (closed : List Span) :
    locateAll definitions ⟨closed.map closeAt ++ writtenLexemes productions, []⟩ =
      .ok (productions.map WrittenProduction.place) := by
  induction productions generalizing closed with
  | nil =>
      have hskip : Cursor.skipped ⟨closed.map closeAt ++ writtenLexemes [], []⟩ = ⟨[], []⟩ :=
        skipPunctuation_closeAt closed []
      rw [locateAll_eq, hskip]
      rfl
  | cons production productions ih =>
      have hskip : Cursor.skipped
          ⟨closed.map closeAt ++ writtenLexemes (production :: productions), []⟩ =
            ⟨production.lexemes ++ writtenLexemes productions, []⟩ :=
        skipPunctuation_closeAt closed _
      have hproduction := locateProduction_written (h production List.mem_cons_self)
        (writtenLexemes productions)
      have hothers := ih (fun other hother => h other (List.mem_cons_of_mem _ hother))
        production.choices.trailing
      rw [locateAll_eq, hskip, hproduction]
      simp only
      rw [hothers]
      rfl

end TreeSmith

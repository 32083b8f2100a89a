import TreeSmith.Proofs.Lexical.Order
import TreeSmith.Proofs.Written.Basic

/-!
# TreeSmith.Proofs.Written.Places

**Which lexemes a part takes.** Every span that `place` gives is a cover of spans of lexemes: of
those that are written for the part, and of the opening parentheses in front that it is given. The
closing parentheses it leaves over stand at its end, behind all that it takes (`lexemes_part`).

Whatever holds of a cover if it holds of what is covered therefore holds of a part if it holds of
what the part takes (`place_covers`). That a span lies between two offsets is of this kind, and
so is that it starts and stops where lexemes do.
-/

namespace TreeSmith

/-! ## What is taken -/

mutual

/-- The lexemes of a part without the closing parentheses that it leaves over. -/
def WrittenPart.taken : WrittenPart → List Lexeme
  | .leaf leaf => [leaf.lexeme]
  | .repeated leaf operator operatorSpan => [leaf.lexeme, operator.glyph.lexeme operatorSpan]
  | .labeled span label colon part =>
    (Glyph.ident label).lexeme span :: Glyph.colon.lexeme colon :: part.taken
  | .group opened choices closed =>
    openAt opened :: (choices.taken ++ ((choices.trailing ++ [closed]).take 1).map closeAt)
  | .postfixed opened choices closed operator operatorSpan =>
    openAt opened ::
      (choices.lexemes ++ [closeAt closed, operator.glyph.lexeme operatorSpan])
  | .parens opened part _ => openAt opened :: part.taken

/-- The lexemes of a sequence without the closing parentheses that it leaves over. -/
def WrittenSequence.taken : WrittenSequence → List Lexeme
  | .one part => part.taken
  | .more part rest => part.lexemes ++ rest.taken
  | .parens opened sequence _ => openAt opened :: sequence.taken

/-- The lexemes of alternatives without the closing parentheses that they leave over. -/
def WrittenChoices.taken : WrittenChoices → List Lexeme
  | .one sequence => sequence.taken
  | .more sequence bar rest => sequence.lexemes ++ Glyph.pipe.lexeme bar :: rest.taken
  | .parens opened choices _ => openAt opened :: choices.taken

end

mutual

/-- What a part takes and what it leaves over are its lexemes. -/
theorem lexemes_part : ∀ part : WrittenPart,
    part.lexemes = part.taken ++ part.trailing.map closeAt
  | .leaf _ => rfl
  | .repeated _ _ _ => rfl
  | .labeled _ _ _ part => by
      rw [WrittenPart.lexemes, lexemes_part part]
      rfl
  | .group _ choices closed => by
      have hclosed : choices.lexemes ++ [closeAt closed] =
          choices.taken ++ (choices.trailing ++ [closed]).map closeAt := by
        rw [lexemes_choices choices, List.append_assoc, List.map_append]
        rfl
      rw [WrittenPart.lexemes, WrittenPart.taken, WrittenPart.trailing, hclosed, List.cons_append,
        List.append_assoc, ← List.map_append, ← List.drop_one, List.take_append_drop]
  | .postfixed _ _ _ _ _ => (List.append_nil _).symm
  | .parens _ part closed => by
      rw [WrittenPart.lexemes, lexemes_part part, WrittenPart.trailing, List.map_append,
        List.append_assoc]
      rfl

theorem lexemes_sequence : ∀ sequence : WrittenSequence,
    sequence.lexemes = sequence.taken ++ sequence.trailing.map closeAt
  | .one part => lexemes_part part
  | .more part rest => by
      rw [WrittenSequence.lexemes, lexemes_sequence rest, ← List.append_assoc]
      rfl
  | .parens _ sequence closed => by
      rw [WrittenSequence.lexemes, lexemes_sequence sequence, WrittenSequence.trailing,
        List.map_append, List.append_assoc]
      rfl

theorem lexemes_choices : ∀ choices : WrittenChoices,
    choices.lexemes = choices.taken ++ choices.trailing.map closeAt
  | .one sequence => lexemes_sequence sequence
  | .more sequence bar rest => by
      rw [WrittenChoices.lexemes, lexemes_choices rest, WrittenChoices.taken,
        List.append_assoc]
      rfl
  | .parens _ choices closed => by
      rw [WrittenChoices.lexemes, lexemes_choices choices, WrittenChoices.trailing,
        List.map_append, List.append_assoc]
      rfl

end

theorem taken_subset_part (part : WrittenPart) : part.taken ⊆ part.lexemes := by
  rw [lexemes_part]
  exact List.subset_append_left _ _

theorem taken_subset_sequence (sequence : WrittenSequence) :
    sequence.taken ⊆ sequence.lexemes := by
  rw [lexemes_sequence]
  exact List.subset_append_left _ _

theorem taken_subset_choices (choices : WrittenChoices) : choices.taken ⊆ choices.lexemes := by
  rw [lexemes_choices]
  exact List.subset_append_left _ _

/-! ## Covers -/

/-- A cover has the property if what it covers has it. -/
def CoverClosed (P : Span → Prop) : Prop :=
  ∀ a b, P a → P b → P (a.cover b)

namespace CoverClosed

variable {P Q : Span → Prop}

theorem from_le (n : Nat) : CoverClosed fun span => n ≤ span.start := by
  intro a b ha hb
  exact Nat.le_min.2 ⟨ha, hb⟩

theorem to_le (n : Nat) : CoverClosed fun span => span.stop ≤ n := by
  intro a b ha hb
  exact Nat.max_le.2 ⟨ha, hb⟩

theorem le_to (n : Nat) : CoverClosed fun span => n ≤ span.stop := by
  intro a b ha _
  exact Nat.le_trans ha (Nat.le_max_left _ _)

theorem and (hP : CoverClosed P) (hQ : CoverClosed Q) :
    CoverClosed fun span => P span ∧ Q span := by
  rintro a b ⟨haP, haQ⟩ ⟨hbP, hbQ⟩
  exact ⟨hP a b haP hbP, hQ a b haQ hbQ⟩

theorem coverOpen (hP : CoverClosed P) {opened : Option Span} {span : Span}
    (hopened : ∀ paren ∈ opened, P paren) (hspan : P span) : P (coverOpen opened span) := by
  cases opened with
  | none => exact hspan
  | some paren => exact hP paren span (hopened paren rfl) hspan

theorem coverClose (hP : CoverClosed P) {closed : Option Span} {span : Span}
    (hclosed : ∀ paren ∈ closed, P paren) (hspan : P span) : P (coverClose span closed) := by
  cases closed with
  | none => exact hspan
  | some paren => exact hP span paren hspan (hclosed paren rfl)

theorem coverAll (hP : CoverClosed P) {spans : List Span} (hne : spans ≠ [])
    (h : ∀ span ∈ spans, P span) : P (Span.coverAll spans) := by
  cases spans with
  | nil => exact absurd rfl hne
  | cons first rest =>
      obtain ⟨hfirst, hrest⟩ := List.forall_mem_cons.1 h
      rw [Span.coverAll]
      clear hne h
      induction rest generalizing first with
      | nil => exact hfirst
      | cons next rest ih =>
          obtain ⟨hnext, hrest⟩ := List.forall_mem_cons.1 hrest
          exact ih (first.cover next) (hP first next hfirst hnext) hrest

end CoverClosed

/-- The parts of a sequence have the property, and there are some. -/
def SequenceHas (P : Span → Prop) (sequence : Sequence) : Prop :=
  sequence ≠ [] ∧ ∀ part ∈ sequence, P part.span

/-- The parts of all alternatives have the property, and there are some in each. -/
def ChoicesHave (P : Span → Prop) (choices : Choices) : Prop :=
  choices ≠ [] ∧ ∀ sequence ∈ choices, SequenceHas P sequence

variable {P : Span → Prop}

theorem SequenceHas.sequenceSpan (hP : CoverClosed P) {sequence : Sequence}
    (h : SequenceHas P sequence) : P (sequenceSpan sequence) := by
  refine hP.coverAll (fun hnil => h.1 (List.map_eq_nil_iff.1 hnil)) ?_
  intro span hspan
  obtain ⟨part, hpart, rfl⟩ := List.mem_map.1 hspan
  exact h.2 part hpart

theorem ChoicesHave.choicesSpan (hP : CoverClosed P) {choices : Choices}
    (h : ChoicesHave P choices) : P (choicesSpan choices) := by
  refine hP.coverAll (fun hnil => h.1 (List.map_eq_nil_iff.1 hnil)) ?_
  intro span hspan
  obtain ⟨sequence, hsequence, rfl⟩ := List.mem_map.1 hspan
  exact (h.2 sequence hsequence).sequenceSpan hP

theorem head?_of_forall {spans : List Span} (h : ∀ span ∈ spans, P span) :
    ∀ span ∈ spans.head?, P span := by
  intro span hspan
  exact h span (List.mem_of_mem_head? hspan)

theorem tail_of_forall {spans : List Span} (h : ∀ span ∈ spans, P span) :
    ∀ span ∈ spans.tail, P span := by
  intro span hspan
  exact h span (List.mem_of_mem_tail hspan)

theorem append_of_forall {spans : List Span} {span : Span} (h : ∀ span ∈ spans, P span)
    (hspan : P span) : ∀ other ∈ spans ++ [span], P other := by
  intro other hother
  rcases List.mem_append.1 hother with hother | hother
  · exact h other hother
  · rw [List.mem_singleton.1 hother]
    exact hspan

mutual

/-- **The span of a part covers what the part takes** and parentheses given to it, and nothing
else. -/
theorem place_covers (hP : CoverClosed P) : ∀ (part : WrittenPart) (opens : List Span),
    (∀ span ∈ opens, P span) → (∀ lexeme ∈ part.taken, P lexeme.span) →
    P (part.place opens).span
  | .leaf leaf, _, _, htaken => by
      rw [WrittenPart.place, leaf.span_part]
      exact htaken leaf.lexeme List.mem_cons_self
  | .repeated leaf operator operatorSpan, opens, hopens, htaken => by
      obtain ⟨hleaf, hoperator⟩ := List.forall_mem_cons.1 htaken
      refine hP _ _ (hP.coverOpen (head?_of_forall hopens) hleaf) ?_
      exact hoperator _ List.mem_cons_self
  | .labeled span _ colon part, _, _, htaken => by
      obtain ⟨hlabel, htaken⟩ := List.forall_mem_cons.1 htaken
      obtain ⟨-, htaken⟩ := List.forall_mem_cons.1 htaken
      -- No parenthesis is handed on through a label.
      have hpart := place_covers hP part [] (List.forall_mem_nil _) htaken
      rw [WrittenPart.place, Part.span_withSpan]
      exact hP _ _ hlabel hpart
  | .group opened choices closed, opens, hopens, htaken => by
      obtain ⟨hopened, htaken⟩ := List.forall_mem_cons.1 htaken
      obtain ⟨htaken, hclosed⟩ := List.forall_mem_append.1 htaken
      have hall := append_of_forall hopens hopened
      have hchoices := placeChoices_covers hP choices _ (tail_of_forall hall) htaken
      -- The group closes with what its alternatives leave over, or else with its own parenthesis.
      refine hP.coverClose ?_ (hP.coverOpen (head?_of_forall hall) (hchoices.choicesSpan hP))
      intro paren hparen
      refine hclosed (closeAt paren) (List.mem_map_of_mem ?_)
      rw [List.take_one]
      exact Option.mem_toList.2 hparen
  | .postfixed opened choices closed operator operatorSpan, opens, hopens, htaken => by
      obtain ⟨hopened, htaken⟩ := List.forall_mem_cons.1 htaken
      obtain ⟨hlexemes, hbehind⟩ := List.forall_mem_append.1 htaken
      have hall := append_of_forall hopens hopened
      have hchoices := placeChoices_covers hP choices _ (tail_of_forall hall)
        fun lexeme hlexeme => hlexemes lexeme (taken_subset_choices choices hlexeme)
      refine hP _ _ (hP.coverOpen (head?_of_forall hall) (hchoices.choicesSpan hP)) ?_
      exact hbehind (operator.glyph.lexeme operatorSpan) (by simp)
  | .parens opened part _, opens, hopens, htaken => by
      obtain ⟨hopened, htaken⟩ := List.forall_mem_cons.1 htaken
      exact place_covers hP part _ (append_of_forall hopens hopened) htaken

theorem placeSequence_covers (hP : CoverClosed P) :
    ∀ (sequence : WrittenSequence) (opens : List Span),
    (∀ span ∈ opens, P span) → (∀ lexeme ∈ sequence.taken, P lexeme.span) →
    SequenceHas P (sequence.place opens)
  | .one part, opens, hopens, htaken => by
      have hpart := place_covers hP part opens hopens htaken
      exact ⟨List.cons_ne_nil _ _, List.forall_mem_singleton.2 hpart⟩
  | .more part rest, opens, hopens, htaken => by
      obtain ⟨hlexemes, htaken⟩ := List.forall_mem_append.1 htaken
      have hpart := place_covers hP part opens hopens
        fun lexeme hlexeme => hlexemes lexeme (taken_subset_part part hlexeme)
      have hrest := placeSequence_covers hP rest [] (List.forall_mem_nil _) htaken
      exact ⟨List.cons_ne_nil _ _, List.forall_mem_cons.2 ⟨hpart, hrest.2⟩⟩
  | .parens opened sequence _, opens, hopens, htaken => by
      obtain ⟨hopened, htaken⟩ := List.forall_mem_cons.1 htaken
      exact placeSequence_covers hP sequence _ (append_of_forall hopens hopened) htaken

theorem placeChoices_covers (hP : CoverClosed P) :
    ∀ (choices : WrittenChoices) (opens : List Span),
    (∀ span ∈ opens, P span) → (∀ lexeme ∈ choices.taken, P lexeme.span) →
    ChoicesHave P (choices.place opens)
  | .one sequence, opens, hopens, htaken => by
      have hsequence := placeSequence_covers hP sequence opens hopens htaken
      exact ⟨List.cons_ne_nil _ _, List.forall_mem_singleton.2 hsequence⟩
  | .more sequence bar rest, opens, hopens, htaken => by
      obtain ⟨hlexemes, htaken⟩ := List.forall_mem_append.1 htaken
      obtain ⟨-, htaken⟩ := List.forall_mem_cons.1 htaken
      have hsequence := placeSequence_covers hP sequence opens hopens
        fun lexeme hlexeme => hlexemes lexeme (taken_subset_sequence sequence hlexeme)
      have hrest := placeChoices_covers hP rest [] (List.forall_mem_nil _) htaken
      exact ⟨List.cons_ne_nil _ _, List.forall_mem_cons.2 ⟨hsequence, hrest.2⟩⟩
  | .parens opened choices _, opens, hopens, htaken => by
      obtain ⟨hopened, htaken⟩ := List.forall_mem_cons.1 htaken
      exact placeChoices_covers hP choices _ (append_of_forall hopens hopened) htaken

end

end TreeSmith

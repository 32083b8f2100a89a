import Mathlib
import TreeSmith.Proofs.Written.Places
import TreeSmith.Proofs.Written.Text

/-!
# TreeSmith.Proofs.Nesting

**The spans of a grammar are well nested.** Every span that a text is read with is non-empty, lies
within the text and reaches from the start of a lexeme to the stop of one; each contains what is
inside, at every depth; and parts, alternatives and productions stand one after the other
(`ofText_nested`).

Parts are followed from the outside to the inside. What the induction carries is how the lexemes
of a part stand among all lexemes, and where the opening parentheses are that were kept for it:
in front of the part, in order, and none of them taken yet (`Situated`). A part that takes the
first of them hands on the others, so two parts never take the same one.
-/

namespace TreeSmith

/-! ## Well-nested spans -/

/-- A span that is not empty, within a text of that size, and made of whole lexemes. -/
structure Proper (size : Nat) (lexemes : List Lexeme) (span : Span) : Prop where
  nonempty : span.start < span.stop
  within : span.stop ≤ size
  starts : ∃ lexeme ∈ lexemes, lexeme.span.start = span.start
  stops : ∃ lexeme ∈ lexemes, lexeme.span.stop = span.stop

/-- Spans inside a whole, one after the other. -/
structure Spread (whole : Span) (spans : List Span) : Prop where
  inside : ∀ span ∈ spans, whole.contains span = true
  apart : spans.Pairwise fun a b => a.stop ≤ b.start

/-- The lexemes start with an opening parenthesis, or with the labels in front of one. -/
inductive GroupStart : List Lexeme → Prop where
  | paren {opened : Lexeme} {rest : List Lexeme} (h : opened.kind = .openParen) :
      GroupStart (opened :: rest)
  | labeled {label colon : Lexeme} {rest : List Lexeme} (hlabel : label.kind = .ident)
      (hcolon : colon.kind = .colon) (h : GroupStart rest) : GroupStart (label :: colon :: rest)

/-- The span starts where a group does. -/
def StartsGroup (lexemes : List Lexeme) (span : Span) : Prop :=
  ∃ rest, rest <:+ lexemes ∧ GroupStart rest ∧
    rest.head?.map (fun lexeme => lexeme.span.start) = some span.start

/-- The span stops with a lexeme of that kind. -/
def StopsWith (kind : LexemeKind) (lexemes : List Lexeme) (span : Span) : Prop :=
  ∃ lexeme ∈ lexemes, lexeme.kind = kind ∧ lexeme.span.stop = span.stop

/-- The span is delimited as composite parts are: a group by its parentheses, the others by their
operator. No text has parts that occur at least once. -/
def Delimited (lexemes : List Lexeme) (span : Span) : Multiplicity → Prop
  | .once => StartsGroup lexemes span ∧ StopsWith .closeParen lexemes span
  | .optional => StopsWith .question lexemes span
  | .zeroOrMore => StopsWith .star lexemes span
  | .oneOrMore => False

mutual

/-- All spans of a part are well nested. -/
inductive PartNested (size : Nat) (lexemes : List Lexeme) : Part → Prop where
  | terminal {span : Span} {image : String} {code : Option String}
      (proper : Proper size lexemes span) :
      PartNested size lexemes (.terminal span image code)
  | nonTerminal {span : Span} {name : String} {code : Option String}
      (proper : Proper size lexemes span) :
      PartNested size lexemes (.nonTerminal span name code)
  | composite {span : Span} {times : Multiplicity} {choices : Choices} {code : Option String}
      (proper : Proper size lexemes span)
      (inside : span.contains (choicesSpan choices) = true)
      (delimited : Delimited lexemes span times)
      (choices_nested : ChoicesNested size lexemes choices) :
      PartNested size lexemes (.composite span times choices code)

/-- All spans of a sequence are well nested. -/
inductive SequenceNested (size : Nat) (lexemes : List Lexeme) : Sequence → Prop where
  | parts {sequence : Sequence} (proper : Proper size lexemes (sequenceSpan sequence))
      (spread : Spread (sequenceSpan sequence) (sequence.map Part.span))
      (parts_nested : ∀ part ∈ sequence, PartNested size lexemes part) :
      SequenceNested size lexemes sequence

/-- All spans of alternatives are well nested. -/
inductive ChoicesNested (size : Nat) (lexemes : List Lexeme) : Choices → Prop where
  | sequences {choices : Choices} (proper : Proper size lexemes (choicesSpan choices))
      (spread : Spread (choicesSpan choices) (choices.map sequenceSpan))
      (sequences_nested : ∀ sequence ∈ choices, SequenceNested size lexemes sequence) :
      ChoicesNested size lexemes choices

end

/-- All spans of a production are well nested, and it has a body. -/
structure ProductionNested (size : Nat) (lexemes : List Lexeme) (production : Production) :
    Prop where
  proper : Proper size lexemes production.span
  body : ∃ choices, production.body = .choices choices ∧
    production.span.contains (choicesSpan choices) = true ∧ ChoicesNested size lexemes choices

/-! ## Covers -/

theorem Proper.cover {size : Nat} {lexemes : List Lexeme} : CoverClosed (Proper size lexemes) := by
  intro a b ha hb
  refine ⟨?_, Nat.max_le.2 ⟨ha.within, hb.within⟩, ?_, ?_⟩
  · have := ha.nonempty
    simp only [Span.cover]
    omega
  · rcases Nat.le_total a.start b.start with hle | hle
    · rw [Span.cover, Nat.min_eq_left hle]
      exact ha.starts
    · rw [Span.cover, Nat.min_eq_right hle]
      exact hb.starts
  · rcases Nat.le_total a.stop b.stop with hle | hle
    · rw [Span.cover, Nat.max_eq_right hle]
      exact hb.stops
    · rw [Span.cover, Nat.max_eq_left hle]
      exact ha.stops

/-- What covers a list contains its members. -/
theorem coverAll_contains {spans : List Span} {span : Span} (h : span ∈ spans) :
    (Span.coverAll spans).contains span = true := by
  cases spans with
  | nil => exact absurd h List.not_mem_nil
  | cons first rest =>
      rw [Span.coverAll]
      induction rest generalizing first span with
      | nil => rw [List.mem_singleton.1 h]; exact Span.contains_self first
      | cons next rest ih =>
          -- The cover of the first two is the first of a shorter list, and contains both.
          have hcover : ∀ other, (first.cover next).contains other = true →
              (rest.foldl Span.cover (first.cover next)).contains other = true :=
            fun other => Span.contains_trans (ih (first.cover next) List.mem_cons_self)
          rcases List.mem_cons.1 h with rfl | h
          · exact hcover span (Span.cover_contains_left span next)
          · rcases List.mem_cons.1 h with rfl | h
            · exact hcover span (Span.cover_contains_right first span)
            · exact ih (first.cover next) (List.mem_cons_of_mem _ h)

theorem Spread.ofApart {spans : List Span}
    (h : spans.Pairwise fun a b => a.stop ≤ b.start) : Spread (Span.coverAll spans) spans :=
  ⟨fun _ hspan => coverAll_contains hspan, h⟩

/-! ## Where a part stands -/

/-- The lexemes stand together among all lexemes, behind the opening parentheses that are kept
for them. -/
structure Situated (all : List Lexeme) (opens : List Span) (lexemes : List Lexeme) : Prop where
  together : lexemes <:+: all
  opened : ∀ span ∈ opens, openAt span ∈ all
  inOrder : InOrder (opens ++ lexemes.map Lexeme.span)

namespace Situated

variable {all : List Lexeme} {opens : List Span} {lexemes more : List Lexeme}

theorem mem (h : Situated all opens lexemes) {lexeme : Lexeme} (hmem : lexeme ∈ lexemes) :
    lexeme ∈ all :=
  h.together.subset hmem

/-- An opening parenthesis that is not taken is kept. -/
theorem keep {opened : Span} (h : Situated all opens (openAt opened :: lexemes)) :
    Situated all (opens ++ [opened]) lexemes := by
  refine ⟨(List.suffix_cons _ _).isInfix.trans h.together, ?_, ?_⟩
  · exact append_of_forall h.opened (h.mem List.mem_cons_self)
  · rw [List.append_assoc]
    exact h.inOrder

theorem left (h : Situated all opens (lexemes ++ more)) : Situated all opens lexemes := by
  refine ⟨(List.prefix_append _ _).isInfix.trans h.together, h.opened, ?_⟩
  have horder := h.inOrder
  rw [List.map_append, ← List.append_assoc] at horder
  exact horder.sublist (List.sublist_append_left _ _)

theorem right (h : Situated all opens (lexemes ++ more)) : Situated all [] more := by
  refine ⟨(List.suffix_append _ _).isInfix.trans h.together, List.forall_mem_nil _, ?_⟩
  have horder := h.inOrder
  rw [List.map_append, ← List.append_assoc] at horder
  exact horder.sublist (List.sublist_append_right _ _)

theorem tail {span : Span} (h : Situated all (span :: opens) lexemes) :
    Situated all opens lexemes :=
  ⟨h.together, fun _ hspan => h.opened _ (List.mem_cons_of_mem _ hspan),
    h.inOrder.sublist (List.sublist_cons_self _ _)⟩

end Situated

/-! ## What a part takes is proper -/

section Bodies

variable {size : Nat} {all : List Lexeme} (hall : ∀ lexeme ∈ all, Proper size all lexeme.span)

include hall

theorem Situated.proper_opens {opens : List Span} {lexemes : List Lexeme}
    (h : Situated all opens lexemes) : ∀ span ∈ opens, Proper size all span := by
  intro span hspan
  exact hall (openAt span) (h.opened span hspan)

theorem proper_place {part : WrittenPart} {opens : List Span}
    (h : Situated all opens part.lexemes) : Proper size all (part.place opens).span := by
  refine place_covers Proper.cover part opens (h.proper_opens hall) ?_
  intro lexeme hlexeme
  exact hall lexeme (h.mem (taken_subset_part part hlexeme))

theorem proper_placeSequence {sequence : WrittenSequence} {opens : List Span}
    (h : Situated all opens sequence.lexemes) :
    Proper size all (sequenceSpan (sequence.place opens)) := by
  refine (placeSequence_covers Proper.cover sequence opens (h.proper_opens hall)
    ?_).sequenceSpan Proper.cover
  intro lexeme hlexeme
  exact hall lexeme (h.mem (taken_subset_sequence sequence hlexeme))

theorem proper_placeChoices {choices : WrittenChoices} {opens : List Span}
    (h : Situated all opens choices.lexemes) :
    Proper size all (choicesSpan (choices.place opens)) := by
  refine (placeChoices_covers Proper.cover choices opens (h.proper_opens hall)
    ?_).choicesSpan Proper.cover
  intro lexeme hlexeme
  exact hall lexeme (h.mem (taken_subset_choices choices hlexeme))

end Bodies

/-! ## What stands in front and behind -/

/-- What is kept in front and what comes first stop before what is written behind. -/
theorem InOrder.stop_le {opens : List Span} {lexemes behind : List Lexeme}
    (h : InOrder (opens ++ (lexemes ++ behind).map Lexeme.span)) {last : Lexeme}
    (hlast : last ∈ behind) : (∀ span ∈ opens, span.stop ≤ last.span.start) ∧
      ∀ lexeme ∈ lexemes, lexeme.span.stop ≤ last.span.start := by
  rw [List.map_append, ← List.append_assoc] at h
  have hbefore := (InOrder.append_iff.1 h).2.2
  have hmem := List.mem_map_of_mem (f := Lexeme.span) hlast
  constructor
  · intro span hspan
    exact hbefore span (List.mem_append_left _ hspan) _ hmem
  · intro lexeme hlexeme
    exact hbefore _ (List.mem_append_right _ (List.mem_map_of_mem hlexeme)) _ hmem

theorem place_stop_le {part : WrittenPart} {opens : List Span} {behind : List Lexeme}
    (h : InOrder (opens ++ (part.lexemes ++ behind).map Lexeme.span)) :
    ∀ lexeme ∈ behind, (part.place opens).span.stop ≤ lexeme.span.start := by
  intro last hlast
  obtain ⟨hopens, hlexemes⟩ := h.stop_le hlast
  refine place_covers (CoverClosed.to_le last.span.start) part opens hopens ?_
  intro lexeme hlexeme
  exact hlexemes lexeme (taken_subset_part part hlexeme)

theorem placeSequence_stop_le {sequence : WrittenSequence} {opens : List Span}
    {behind : List Lexeme} (h : InOrder (opens ++ (sequence.lexemes ++ behind).map Lexeme.span)) :
    ∀ lexeme ∈ behind, (sequenceSpan (sequence.place opens)).stop ≤ lexeme.span.start := by
  intro last hlast
  have hclosed := CoverClosed.to_le last.span.start
  obtain ⟨hopens, hlexemes⟩ := h.stop_le hlast
  refine (placeSequence_covers hclosed sequence opens hopens ?_).sequenceSpan hclosed
  intro lexeme hlexeme
  exact hlexemes lexeme (taken_subset_sequence sequence hlexeme)

/-- Alternatives lie between the parenthesis that was taken in front of them and what is written
behind what they take. -/
theorem placeChoices_between {choices : WrittenChoices} {first : Span} {opens : List Span}
    {last : Lexeme} {behind : List Lexeme}
    (h : InOrder (first :: opens ++ (choices.taken ++ last :: behind).map Lexeme.span)) :
    first.stop ≤ (choicesSpan (choices.place opens)).start ∧
      (choicesSpan (choices.place opens)).stop ≤ last.span.start := by
  have hclosed := (CoverClosed.from_le first.stop).and (CoverClosed.to_le last.span.start)
  obtain ⟨hopens, hlexemes⟩ := h.stop_le List.mem_cons_self
  have hbehind := (InOrder.cons_iff.1 h).2.1
  refine (placeChoices_covers hclosed choices opens ?_ ?_).choicesSpan hclosed
  · intro span hspan
    exact ⟨hbehind span (List.mem_append_left _ hspan),
      hopens span (List.mem_cons_of_mem _ hspan)⟩
  · intro lexeme hlexeme
    have hmem := List.mem_map_of_mem (f := Lexeme.span)
      (List.mem_append_left (last :: behind) hlexeme)
    exact ⟨hbehind _ (List.mem_append_right _ hmem), hlexemes lexeme hlexeme⟩

/-- Without parentheses kept in front of it, a part starts no earlier than its lexemes. -/
theorem le_place_start {part : WrittenPart} {n : Nat}
    (h : ∀ lexeme ∈ part.lexemes, n ≤ lexeme.span.start) : n ≤ (part.place []).span.start := by
  refine place_covers (CoverClosed.from_le n) part [] (List.forall_mem_nil _) ?_
  intro lexeme hlexeme
  exact h lexeme (taken_subset_part part hlexeme)

theorem le_placeSequence_start {sequence : WrittenSequence} {n : Nat}
    (h : ∀ lexeme ∈ sequence.lexemes, n ≤ lexeme.span.start) :
    ∀ part ∈ sequence.place [], n ≤ part.span.start := by
  refine (placeSequence_covers (CoverClosed.from_le n) sequence [] (List.forall_mem_nil _) ?_).2
  intro lexeme hlexeme
  exact h lexeme (taken_subset_sequence sequence hlexeme)

theorem le_placeChoices_start {choices : WrittenChoices} {n : Nat}
    (h : ∀ lexeme ∈ choices.lexemes, n ≤ lexeme.span.start) :
    ∀ sequence ∈ choices.place [], n ≤ (sequenceSpan sequence).start := by
  intro sequence hsequence
  have hchoices := placeChoices_covers (CoverClosed.from_le n) choices [] (List.forall_mem_nil _)
    fun lexeme hlexeme => h lexeme (taken_subset_choices choices hlexeme)
  exact (hchoices.2 sequence hsequence).sequenceSpan (CoverClosed.from_le n)

/-! ## Composite parts -/

section Composite

variable {size : Nat} {all : List Lexeme}

theorem SequenceNested.ofPart {part : Part} (h : Proper size all part.span)
    (hnested : PartNested size all part) : SequenceNested size all [part] :=
  .parts h (.ofApart (List.pairwise_singleton _ _)) (List.forall_mem_singleton.2 hnested)

theorem PartNested.proper {part : Part} (h : PartNested size all part) :
    Proper size all part.span := by
  cases h with
  | terminal proper => exact proper
  | nonTerminal proper => exact proper
  | composite proper _ _ _ => exact proper

theorem ChoicesNested.proper {choices : Choices} (h : ChoicesNested size all choices) :
    Proper size all (choicesSpan choices) := by
  cases h with
  | sequences proper _ _ => exact proper

theorem SequenceNested.proper {sequence : Sequence} (h : SequenceNested size all sequence) :
    Proper size all (sequenceSpan sequence) := by
  cases h with
  | parts proper _ _ => exact proper

theorem SequenceNested.singleton {sequence : Sequence} (h : SequenceNested size all sequence) :
    ChoicesNested size all [sequence] :=
  .sequences h.proper (.ofApart (List.pairwise_singleton _ _)) (List.forall_mem_singleton.2 h)

/-- What an operator stands behind is nested in the part that the operator makes. -/
theorem nested_operator {operator : Operator} {operatorSpan : Span} {opened : Option Span}
    {choices : Choices}
    (hproper : Proper size all ((coverOpen opened (choicesSpan choices)).cover operatorSpan))
    (hchoices : ChoicesNested size all choices)
    (hmem : operator.glyph.lexeme operatorSpan ∈ all)
    (hstop : (coverOpen opened (choicesSpan choices)).stop ≤ operatorSpan.stop) :
    PartNested size all (.composite ((coverOpen opened (choicesSpan choices)).cover operatorSpan)
      operator.times choices none) := by
  have hinside : (coverOpen opened (choicesSpan choices)).contains (choicesSpan choices) =
      true := by
    cases opened with
    | none => exact Span.contains_self _
    | some paren => exact Span.cover_contains_right _ _
  have hlast : operatorSpan.stop =
      ((coverOpen opened (choicesSpan choices)).cover operatorSpan).stop :=
    (Nat.max_eq_right hstop).symm
  refine .composite hproper
    (Span.contains_trans (Span.cover_contains_left _ _) hinside) ?_ hchoices
  cases operator with
  | question => exact ⟨_, hmem, rfl, hlast⟩
  | star => exact ⟨_, hmem, rfl, hlast⟩

/-- Alternatives between two parentheses are nested in the group that the parentheses make. -/
theorem nested_group {first last : Span} {choices : Choices}
    (hproper : Proper size all ((first.cover (choicesSpan choices)).cover last))
    (hchoices : ChoicesNested size all choices)
    (hfirst : openAt first ∈ all) (hlast : closeAt last ∈ all)
    (hstart : first.start ≤ (choicesSpan choices).start)
    (hstop : (choicesSpan choices).stop ≤ last.stop)
    (hapart : first.start ≤ last.start ∧ first.stop ≤ last.stop) :
    PartNested size all (.composite ((first.cover (choicesSpan choices)).cover last) .once choices
      none) := by
  have hinside := Span.contains_trans
    (Span.cover_contains_left (first.cover (choicesSpan choices)) last)
    (Span.cover_contains_right first (choicesSpan choices))
  refine .composite hproper hinside ⟨?_, ?_⟩ hchoices
  · obtain ⟨before, behind, rfl⟩ := List.append_of_mem hfirst
    refine ⟨openAt first :: behind, List.suffix_append _ _, .paren rfl, congrArg some ?_⟩
    show first.start = min (min first.start (choicesSpan choices).start) last.start
    omega
  · refine ⟨closeAt last, hlast, rfl, ?_⟩
    show last.stop = max (max first.stop (choicesSpan choices).stop) last.stop
    omega

end Composite

/-! ## Labels -/

/-- Is the part a group? -/
def Part.isGroup : Part → Bool
  | .composite _ .once _ _ => true
  | _ => false

@[simp] theorem isGroup_withSpan (part : Part) (span : Span) :
    (part.withSpan span).isGroup = part.isGroup := by
  cases part with
  | terminal _ _ _ => rfl
  | nonTerminal _ _ _ => rfl
  | composite _ times _ _ => cases times <;> rfl

/-- A group is written from its parenthesis on, or from the labels in front of it. -/
theorem groupStart_lexemes (behind : List Lexeme) : ∀ part : WrittenPart,
    (part.place []).isGroup = true → GroupStart (part.lexemes ++ behind)
  | .leaf leaf, h => by cases leaf <;> cases h
  | .repeated _ operator _, h => by cases operator <;> cases h
  | .labeled _ _ _ part, h => by
      rw [WrittenPart.place, isGroup_withSpan] at h
      exact .labeled rfl rfl (groupStart_lexemes behind part h)
  | .group _ _ _, _ => .paren rfl
  | .postfixed _ _ _ operator _, h => by cases operator <;> cases h
  | .parens _ _ _, _ => .paren rfl

/-- A part stays nested when its span is drawn to the left, over what is in front of it. -/
theorem PartNested.withSpan {size : Nat} {all : List Lexeme} {part : Part} {span : Span}
    (h : PartNested size all part) (hproper : Proper size all span)
    (hinside : span.contains part.span = true) (hstop : part.span.stop = span.stop)
    (hstart : part.isGroup = true → StartsGroup all span) :
    PartNested size all (part.withSpan span) := by
  cases h with
  | terminal _ => exact .terminal hproper
  | nonTerminal _ => exact .nonTerminal hproper
  | @composite inner times choices code _ hchoices hdelimited hnested =>
      have hstops : ∀ kind, StopsWith kind all inner → StopsWith kind all span := by
        rintro kind ⟨lexeme, hmem, hkind, hlast⟩
        exact ⟨lexeme, hmem, hkind, hlast.trans hstop⟩
      refine .composite hproper (Span.contains_trans hinside hchoices) ?_ hnested
      cases times with
      | once => exact ⟨hstart rfl, hstops _ hdelimited.2⟩
      | optional => exact hstops _ hdelimited
      | zeroOrMore => exact hstops _ hdelimited
      | oneOrMore => exact hdelimited

/-! ## Bodies -/

section Bodies

variable {size : Nat} {all : List Lexeme} (hall : ∀ lexeme ∈ all, Proper size all lexeme.span)

include hall

theorem nested_leaf {leaf : Leaf} (h : leaf.lexeme ∈ all) : PartNested size all leaf.part := by
  cases leaf with
  | nonTerminal span name => exact .nonTerminal (hall _ h)
  | terminal span image => exact .terminal (hall _ h)

mutual

theorem nested_place : ∀ (part : WrittenPart) (opens : List Span),
    Situated all opens part.lexemes → PartNested size all (part.place opens)
  | .leaf leaf, opens, h => nested_leaf hall (h.mem List.mem_cons_self)
  | .repeated leaf operator operatorSpan, opens, h => by
      have hproper := proper_place hall h
      have hleaf := nested_leaf hall (h.mem List.mem_cons_self)
      have hmem : operator.glyph.lexeme operatorSpan ∈ all :=
        h.mem (List.mem_cons_of_mem _ List.mem_cons_self)
      have hspan : choicesSpan [[leaf.part]] = leaf.span := leaf.span_part
      have horder : InOrder (opens ++
        ([leaf.lexeme] ++ [operator.glyph.lexeme operatorSpan]).map Lexeme.span) := h.inOrder
      -- The operator stands behind the leaf and behind what is kept in front of it.
      obtain ⟨hopens, hlexemes⟩ := horder.stop_le List.mem_cons_self
      have hbefore : (coverOpen opens.head? leaf.span).stop ≤ operatorSpan.start :=
        (CoverClosed.to_le operatorSpan.start).coverOpen (head?_of_forall hopens)
          (hlexemes leaf.lexeme List.mem_cons_self)
      have hnonempty : operatorSpan.start < operatorSpan.stop := (hall _ hmem).nonempty
      rw [WrittenPart.place, ← hspan] at hproper ⊢
      rw [← hspan] at hbefore
      refine nested_operator hproper (SequenceNested.ofPart ?_ hleaf).singleton hmem
        (Nat.le_trans hbefore (Nat.le_of_lt hnonempty))
      rw [leaf.span_part]
      exact (hall leaf.lexeme (h.mem List.mem_cons_self))
  | .labeled span label colon part, opens, h => by
      have hproper := proper_place hall h
      have hwhole : Situated all opens ([(Glyph.ident label).lexeme span,
        Glyph.colon.lexeme colon] ++ part.lexemes) := h
      have hnested := nested_place part [] hwhole.right
      -- The label stops before its part starts, so the span is drawn to the left only.
      have hbehind : span.stop ≤ (part.place []).span.start := le_place_start fun lexeme hlexeme =>
        (hwhole.inOrder.stop_le hlexeme).2 _ List.mem_cons_self
      have hnonempty := hnested.proper.nonempty
      have hlabel : span.start < span.stop := (hall _ (h.mem List.mem_cons_self)).nonempty
      rw [WrittenPart.place, Part.span_withSpan] at hproper
      refine hnested.withSpan hproper (Span.cover_contains_right _ _) ?_ fun hgroup => ?_
      · show _ = max span.stop (part.place []).span.stop
        omega
      · obtain ⟨before, behind, htogether⟩ := h.together
        rw [List.append_assoc] at htogether
        refine ⟨_, ⟨before, htogether⟩, ?_, ?_⟩
        · exact .labeled rfl rfl (groupStart_lexemes behind part hgroup)
        · refine congrArg some ?_
          show span.start = min span.start (part.place []).span.start
          omega
  | .group opened choices closed, opens, h => by
      have hproper := proper_place hall h
      have hkept := h.keep
      -- The two parentheses of the group: the first that is kept, and the first that its
      -- alternatives leave over. Either is its own if there is no other.
      obtain ⟨first, kept, hopens⟩ := exists_first opens opened
      obtain ⟨last, left, hclosed⟩ := exists_first choices.trailing closed
      rw [WrittenPart.place, hopens, hclosed, List.tail_cons] at hproper ⊢
      rw [hopens] at hkept
      have hchoices := nestedChoices_place choices kept hkept.left.tail
      have hlexemes : choices.lexemes ++ [closeAt closed] =
          choices.taken ++ closeAt last :: left.map closeAt := by
        rw [lexemes_choices choices, List.append_assoc, ← List.map_cons, ← hclosed,
          List.map_append]
        rfl
      rw [hlexemes] at hkept
      obtain ⟨hstart, hstop⟩ := placeChoices_between hkept.inOrder
      have hfirst : openAt first ∈ all := hkept.opened first List.mem_cons_self
      have hlast : closeAt last ∈ all :=
        hkept.mem (List.mem_append_right _ List.mem_cons_self)
      have hfirstNonempty : first.start < first.stop := (hall _ hfirst).nonempty
      have hlastNonempty : last.start < last.stop := (hall _ hlast).nonempty
      have hspan := hchoices.proper.nonempty
      have hlastStart : (closeAt last).span = last := rfl
      rw [hlastStart] at hstop
      exact nested_group hproper hchoices hfirst hlast (by omega) (by omega) (by omega)
  | .postfixed opened choices closed operator operatorSpan, opens, h => by
      have hproper := proper_place hall h
      have hkept := h.keep
      obtain ⟨first, kept, hopens⟩ := exists_first opens opened
      rw [WrittenPart.place, hopens, List.tail_cons] at hproper ⊢
      rw [hopens] at hkept
      have hchoices := nestedChoices_place choices kept hkept.left.tail
      have hmem : operator.glyph.lexeme operatorSpan ∈ all :=
        hkept.mem (List.mem_append_right _ (List.mem_cons_of_mem _ List.mem_cons_self))
      have hlast : operatorSpan.start < operatorSpan.stop := (hall _ hmem).nonempty
      -- What the alternatives leave over stands between them and the operator.
      have htaken : (choices.taken ++ [operator.glyph.lexeme operatorSpan]).Sublist
          (choices.lexemes ++ [closeAt closed, operator.glyph.lexeme operatorSpan]) := by
        rw [lexemes_choices choices]
        exact (List.sublist_append_left _ _).append (List.sublist_cons_self _ _)
      obtain ⟨hstart, hstop⟩ := placeChoices_between (hkept.inOrder.sublist
        ((List.Sublist.refl (first :: kept)).append (htaken.map Lexeme.span)))
      have hspan := hchoices.proper.nonempty
      have hoperator : (operator.glyph.lexeme operatorSpan).span = operatorSpan := rfl
      rw [hoperator] at hstop
      refine nested_operator hproper hchoices hmem ?_
      show max first.stop (choicesSpan (choices.place kept)).stop ≤ operatorSpan.stop
      omega
  | .parens opened part closed, opens, h => nested_place part (opens ++ [opened]) h.keep.left

theorem nestedSequence_place : ∀ (sequence : WrittenSequence) (opens : List Span),
    Situated all opens sequence.lexemes → SequenceNested size all (sequence.place opens)
  | .one part, opens, h => .ofPart (proper_place hall h) (nested_place part opens h)
  | .more part rest, opens, h => by
      have hproper := proper_placeSequence hall h
      have hpart := nested_place part opens h.left
      obtain ⟨-, hspread, hparts⟩ := nestedSequence_place rest [] h.right
      have hapart : ∀ next ∈ rest.place [], (part.place opens).span.stop ≤ next.span.start :=
        le_placeSequence_start (place_stop_le h.inOrder)
      refine .parts hproper (.ofApart (List.pairwise_cons.2 ⟨?_, hspread.apart⟩))
        (List.forall_mem_cons.2 ⟨hpart, hparts⟩)
      intro span hspan
      obtain ⟨next, hnext, rfl⟩ := List.mem_map.1 hspan
      exact hapart next hnext
  | .parens opened sequence closed, opens, h =>
      nestedSequence_place sequence (opens ++ [opened]) h.keep.left

theorem nestedChoices_place : ∀ (choices : WrittenChoices) (opens : List Span),
    Situated all opens choices.lexemes → ChoicesNested size all (choices.place opens)
  | .one sequence, opens, h => (nestedSequence_place sequence opens h).singleton
  | .more sequence bar rest, opens, h => by
      have hproper := proper_placeChoices hall h
      have hsequence := nestedSequence_place sequence opens h.left
      have hbar : Situated all [] ([Glyph.pipe.lexeme bar] ++ rest.lexemes) := h.right
      obtain ⟨-, hspread, hsequences⟩ := nestedChoices_place rest [] hbar.right
      have hapart : ∀ next ∈ rest.place [],
          (sequenceSpan (sequence.place opens)).stop ≤ (sequenceSpan next).start :=
        le_placeChoices_start fun lexeme hlexeme =>
          placeSequence_stop_le h.inOrder lexeme (List.mem_cons_of_mem _ hlexeme)
      refine .sequences hproper (.ofApart (List.pairwise_cons.2 ⟨?_, hspread.apart⟩))
        (List.forall_mem_cons.2 ⟨hsequence, hsequences⟩)
      intro span hspan
      obtain ⟨next, hnext, rfl⟩ := List.mem_map.1 hspan
      exact hapart next hnext
  | .parens opened choices closed, opens, h =>
      nestedChoices_place choices (opens ++ [opened]) h.keep.left

end

end Bodies

/-! ## Productions -/

theorem nested_production {size : Nat} {all : List Lexeme}
    (hall : ∀ lexeme ∈ all, Proper size all lexeme.span) {production : WrittenProduction}
    (h : Situated all [] production.lexemes) : ProductionNested size all production.place := by
  have hname := hall _ (h.mem List.mem_cons_self)
  have hbody : Situated all [] ([(Glyph.ident production.name).lexeme production.nameSpan,
    Glyph.eq.lexeme production.eqSpan] ++ production.choices.lexemes) := h
  have hchoices := nestedChoices_place hall production.choices [] hbody.right
  exact ⟨Proper.cover _ _ hname hchoices.proper,
    ⟨_, rfl, Span.cover_contains_right _ _, hchoices⟩⟩

/-- The span of a production covers its lexemes, as that of a part does. -/
theorem placeProduction_covers {P : Span → Prop} (hP : CoverClosed P)
    {production : WrittenProduction} (h : ∀ lexeme ∈ production.lexemes, P lexeme.span) :
    P production.place.span := by
  obtain ⟨hname, hrest⟩ := List.forall_mem_cons.1 h
  obtain ⟨-, hbody⟩ := List.forall_mem_cons.1 hrest
  have hchoices := placeChoices_covers hP production.choices [] (List.forall_mem_nil _)
    fun lexeme hlexeme => hbody lexeme (taken_subset_choices production.choices hlexeme)
  exact hP _ _ hname (hchoices.choicesSpan hP)

/-- Productions stand one after the other. -/
theorem productions_apart {productions : List WrittenProduction}
    (h : InOrder ((writtenLexemes productions).map Lexeme.span)) :
    (productions.map fun production => production.place.span).Pairwise
      fun a b => a.stop ≤ b.start := by
  induction productions with
  | nil => exact List.Pairwise.nil
  | cons production others ih =>
      have horder : InOrder ([] ++
        (production.lexemes ++ writtenLexemes others).map Lexeme.span) := h
      have hothers : InOrder ((writtenLexemes others).map Lexeme.span) := by
        rw [List.map_append] at horder
        exact horder.sublist (List.sublist_append_right _ _)
      refine List.pairwise_cons.2 ⟨?_, ih hothers⟩
      intro span hspan
      obtain ⟨other, hother, rfl⟩ := List.mem_map.1 hspan
      refine placeProduction_covers (CoverClosed.from_le _) ?_
      intro lexeme hlexeme
      have hbehind : lexeme ∈ writtenLexemes others :=
        List.mem_flatMap.2 ⟨other, hother, hlexeme⟩
      exact placeProduction_covers (CoverClosed.to_le _) (horder.stop_le hbehind).2

/-! ## The text that was read -/

section TextWritten

variable {text : String} {definitions : List Definition} {lexemes : Lexemes}
  {productions : List WrittenProduction}

theorem TextWritten.proper (h : TextWritten text definitions lexemes productions) :
    ∀ lexeme ∈ lexemes.lexemes, Proper (Text.size text.toList) lexemes.lexemes lexeme.span := by
  obtain ⟨horder, hwithin⟩ := inOrder_of_tokenize h.tokenize
  intro lexeme hlexeme
  exact ⟨horder.nonempty _ (List.mem_map_of_mem hlexeme), hwithin lexeme hlexeme,
    ⟨lexeme, hlexeme, rfl⟩, ⟨lexeme, hlexeme, rfl⟩⟩

/-- Nothing is kept in front of a production. -/
theorem TextWritten.situated (h : TextWritten text definitions lexemes productions)
    {production : WrittenProduction} (hproduction : production ∈ productions) :
    Situated lexemes.lexemes [] production.lexemes := by
  obtain ⟨horder, -⟩ := inOrder_of_tokenize h.tokenize
  have htogether : production.lexemes <:+: lexemes.lexemes := by
    rw [h.lexemes_eq]
    exact List.infix_of_mem_flatten (List.mem_map_of_mem hproduction)
  exact ⟨htogether, List.forall_mem_nil _, horder.sublist (htogether.sublist.map Lexeme.span)⟩

theorem TextWritten.apart (h : TextWritten text definitions lexemes productions) :
    ((productions.map WrittenProduction.place).map Production.span).Pairwise
      fun a b => a.stop ≤ b.start := by
  obtain ⟨horder, -⟩ := inOrder_of_tokenize h.tokenize
  rw [h.lexemes_eq] at horder
  rw [List.map_map]
  exact productions_apart horder

end TextWritten

/-- **The spans of a grammar are well nested**: those of each production, from its own down to
those of its innermost parts, and the productions one after the other. -/
theorem ofText_nested {text : String} {grammar : Grammar}
    (h : Grammar.ofText text = .ok grammar) : ∃ lexemes, tokenize text = .ok lexemes ∧
      (∀ production ∈ grammar.productions,
        ProductionNested (Text.size text.toList) lexemes.lexemes production) ∧
      (grammar.productions.map Production.span).Pairwise fun a b => a.stop ≤ b.start := by
  obtain ⟨definitions, lexemes, productions, hwritten, rfl⟩ := exists_written_of_ofText h
  refine ⟨lexemes, hwritten.tokenize, ?_, hwritten.apart⟩
  intro production hproduction
  obtain ⟨written, hmem, rfl⟩ := List.mem_map.1 hproduction
  exact nested_production hwritten.proper (hwritten.situated hmem)

/-- A labeled group that holds another one, an operator, and a second alternative. -/
theorem ofText_nested_labeled_group : ∃ grammar lexemes,
    Grammar.ofText "A = x:('b' (A | y:A)) A? | A" = .ok grammar ∧
      tokenize "A = x:('b' (A | y:A)) A? | A" = .ok lexemes ∧
      (∀ production ∈ grammar.productions,
        ProductionNested 28 lexemes.lexemes production) ∧
      (grammar.productions.map Production.span).Pairwise fun a b => a.stop ≤ b.start := by
  have hread : Grammar.ofText "A = x:('b' (A | y:A)) A? | A" = .ok ⟨[⟨"A", ⟨0, 28⟩, .choices
      [[.composite ⟨4, 21⟩ .once [[.terminal ⟨7, 10⟩ "b" none,
          .composite ⟨11, 20⟩ .once [[.nonTerminal ⟨12, 13⟩ "A" none],
            [.nonTerminal ⟨16, 19⟩ "A" none]] none]] none,
          .composite ⟨22, 24⟩ .optional [[.nonTerminal ⟨22, 23⟩ "A" none]] none],
        [.nonTerminal ⟨27, 28⟩ "A" none]]⟩], []⟩ := by cbv
  obtain ⟨lexemes, htokenize, hnested⟩ := ofText_nested hread
  exact ⟨_, lexemes, hread, htokenize, hnested⟩

end TreeSmith

import TreeSmith.Proofs.Nesting
import TreeSmith.Proofs.Preorder

/-!
# TreeSmith.Proofs.Parentheses

**Which parentheses a span has half of.** A composite part is to cover its own parentheses and no
half of another pair. It does not always: the walk keeps the opening parentheses in front of a part
without a note of what they enclose, and a composite part takes all of them into its span, those of
an enclosing pair included. A production, on the other hand, ends before the closing parentheses
that stand around its last part and are redundant.

What the spans do have is said exactly (`ofText_unclosed`). No closing parenthesis is without its
opening one. How many opening parentheses are not closed is read off what was written, for a
production (`WrittenChoices.trailing`) and for its composite parts in pre-order
(`WrittenChoices.unclosed`): a part has as many as redundant pairs start right in front of it, and
a group one more for each redundant pair that ends right behind its last part.

The proof follows the parts as `nested_place` does, but has to know more of where a part stands:
the opening parentheses that are kept for it are right in front of it, with nothing in between
(`Adjacent`). So the lexemes inside its span can be named (`WrittenPart.covered`).
-/

namespace TreeSmith

/-! ## Parentheses inside a span -/

/-- The lexemes that lie inside a span. -/
def lexemesIn (lexemes : List Lexeme) (span : Span) : List Lexeme :=
  lexemes.filter fun lexeme => span.contains lexeme.span

/-- How many parentheses are open behind the lexemes, if `depth` are open in front of them. There
is no answer if a parenthesis is closed and none is open. -/
def unclosed (depth : Nat) : List Lexeme → Option Nat
  | [] => some depth
  | lexeme :: rest =>
    match lexeme.kind, depth with
    | .openParen, depth => unclosed (depth + 1) rest
    | .closeParen, 0 => none
    | .closeParen, depth + 1 => unclosed depth rest
    | _, depth => unclosed depth rest

/-- Every parenthesis is closed, and none is closed that was not opened. -/
def Balanced (lexemes : List Lexeme) : Prop :=
  unclosed 0 lexemes = some 0

instance (lexemes : List Lexeme) : Decidable (Balanced lexemes) :=
  inferInstanceAs (Decidable (_ = _))

section Unclosed

variable {depth : Nat} {rest : List Lexeme}

@[simp] theorem unclosed_nil : unclosed depth [] = some depth := rfl

@[simp] theorem unclosed_openAt {span : Span} :
    unclosed depth (openAt span :: rest) = unclosed (depth + 1) rest := rfl

@[simp] theorem unclosed_closeAt {span : Span} :
    unclosed (depth + 1) (closeAt span :: rest) = unclosed depth rest := rfl

@[simp] theorem unclosed_leaf {leaf : Leaf} :
    unclosed depth (leaf.lexeme :: rest) = unclosed depth rest := by
  cases leaf <;> rfl

@[simp] theorem unclosed_operator {operator : Operator} {span : Span} :
    unclosed depth (operator.glyph.lexeme span :: rest) = unclosed depth rest := by
  cases operator <;> rfl

@[simp] theorem unclosed_ident {name : String} {span : Span} :
    unclosed depth ((Glyph.ident name).lexeme span :: rest) = unclosed depth rest := rfl

@[simp] theorem unclosed_colon {span : Span} :
    unclosed depth (Glyph.colon.lexeme span :: rest) = unclosed depth rest := rfl

@[simp] theorem unclosed_pipe {span : Span} :
    unclosed depth (Glyph.pipe.lexeme span :: rest) = unclosed depth rest := rfl

@[simp] theorem unclosed_eq {span : Span} :
    unclosed depth (Glyph.eq.lexeme span :: rest) = unclosed depth rest := rfl

@[simp] theorem unclosed_opens {spans : List Span} :
    unclosed depth (spans.map openAt ++ rest) = unclosed (depth + spans.length) rest := by
  induction spans generalizing depth with
  | nil => rfl
  | cons span spans ih =>
      rw [List.map_cons, List.cons_append, unclosed_openAt, ih, List.length_cons, Nat.add_assoc,
        Nat.add_comm 1]

@[simp] theorem unclosed_closes {spans : List Span} :
    unclosed (depth + spans.length) (spans.map closeAt ++ rest) = unclosed depth rest := by
  induction spans with
  | nil => rfl
  | cons span spans ih =>
      rw [List.map_cons, List.cons_append, List.length_cons, ← Nat.add_assoc, unclosed_closeAt, ih]

end Unclosed

/-- What is written closes the parentheses that it opens, if it leaves over as many closing ones
as what it takes leaves open. -/
theorem unclosed_append_of_taken {lexemes taken : List Lexeme} {trailing : List Span}
    (hsplit : lexemes = taken ++ trailing.map closeAt)
    (htaken : ∀ depth rest,
      unclosed depth (taken ++ rest) = unclosed (depth + trailing.length) rest)
    (depth : Nat) (rest : List Lexeme) :
    unclosed depth (lexemes ++ rest) = unclosed depth rest := by
  rw [hsplit, List.append_assoc, htaken, unclosed_closes]

mutual

/-- Of the parentheses that a part takes, as many are open as it leaves closing ones over. -/
theorem unclosed_taken_part : ∀ (part : WrittenPart) (depth : Nat) (rest : List Lexeme),
    unclosed depth (part.taken ++ rest) = unclosed (depth + part.trailing.length) rest
  | .leaf leaf, depth, rest => by simp [WrittenPart.taken, WrittenPart.trailing]
  | .repeated leaf operator _, depth, rest => by simp [WrittenPart.taken, WrittenPart.trailing]
  | .labeled _ _ _ part, depth, rest => by
      simp [WrittenPart.taken, WrittenPart.trailing, unclosed_taken_part part]
  | .group _ choices closed, depth, rest => by
      obtain ⟨last, left, hclosed⟩ := exists_first choices.trailing closed
      have hlength : choices.trailing.length = left.length := by
        have := congrArg List.length hclosed
        simpa using this
      rw [WrittenPart.taken, WrittenPart.trailing, hclosed, List.cons_append, unclosed_openAt,
        List.append_assoc, unclosed_taken_choices choices, hlength, Nat.add_right_comm]
      exact unclosed_closeAt
  | .postfixed _ choices _ _ _, depth, rest => by
      have hlexemes := unclosed_append_of_taken (lexemes_choices choices)
        (unclosed_taken_choices choices)
      simp [WrittenPart.taken, WrittenPart.trailing, hlexemes]
  | .parens _ part closed, depth, rest => by
      rw [WrittenPart.taken, WrittenPart.trailing, List.cons_append, unclosed_openAt,
        unclosed_taken_part part, List.length_append, List.length_singleton, Nat.add_right_comm,
        Nat.add_assoc]

theorem unclosed_taken_sequence : ∀ (sequence : WrittenSequence) (depth : Nat)
    (rest : List Lexeme),
    unclosed depth (sequence.taken ++ rest) = unclosed (depth + sequence.trailing.length) rest
  | .one part, depth, rest => unclosed_taken_part part depth rest
  | .more part others, depth, rest => by
      rw [WrittenSequence.taken, WrittenSequence.trailing, List.append_assoc,
        unclosed_append_of_taken (lexemes_part part) (unclosed_taken_part part),
        unclosed_taken_sequence others]
  | .parens _ sequence closed, depth, rest => by
      rw [WrittenSequence.taken, WrittenSequence.trailing, List.cons_append, unclosed_openAt,
        unclosed_taken_sequence sequence, List.length_append, List.length_singleton,
        Nat.add_right_comm, Nat.add_assoc]

theorem unclosed_taken_choices : ∀ (choices : WrittenChoices) (depth : Nat)
    (rest : List Lexeme),
    unclosed depth (choices.taken ++ rest) = unclosed (depth + choices.trailing.length) rest
  | .one sequence, depth, rest => unclosed_taken_sequence sequence depth rest
  | .more sequence bar others, depth, rest => by
      rw [WrittenChoices.taken, WrittenChoices.trailing, List.append_assoc,
        unclosed_append_of_taken (lexemes_sequence sequence) (unclosed_taken_sequence sequence),
        List.cons_append, unclosed_pipe, unclosed_taken_choices others]
  | .parens _ choices closed, depth, rest => by
      rw [WrittenChoices.taken, WrittenChoices.trailing, List.cons_append, unclosed_openAt,
        unclosed_taken_choices choices, List.length_append, List.length_singleton,
        Nat.add_right_comm, Nat.add_assoc]

end

/-! ## What a span covers -/

/-- In order, all lie between the first and the last. -/
theorem InOrder.within {spans rest front : List Span} {first last : Span} (h : InOrder spans)
    (hfirst : spans = first :: rest) (hlast : spans = front ++ [last]) :
    ∀ span ∈ spans, first.start ≤ span.start ∧ span.stop ≤ last.stop := by
  intro span hspan
  have hspanSize := h.nonempty span hspan
  constructor
  · rw [hfirst] at h hspan
    obtain ⟨hsize, hbehind, -⟩ := InOrder.cons_iff.1 h
    rcases List.mem_cons.1 hspan with rfl | hspan
    · exact Nat.le_refl _
    · have := hbehind span hspan
      omega
  · rw [hlast] at h hspan
    obtain ⟨-, hsize, hbefore⟩ := InOrder.append_iff.1 h
    have hlastSize := hsize.nonempty last List.mem_cons_self
    rcases List.mem_append.1 hspan with hspan | hspan
    · have := hbefore span hspan last List.mem_cons_self
      omega
    · obtain rfl := List.mem_singleton.1 hspan
      exact Nat.le_refl _

/-- What lies in front of a span or behind it is not inside. -/
theorem lexemesIn_eq_nil {lexemes : List Lexeme} {span : Span}
    (hnonempty : ∀ lexeme ∈ lexemes, lexeme.span.start < lexeme.span.stop)
    (hapart : ∀ lexeme ∈ lexemes,
      lexeme.span.stop ≤ span.start ∨ span.stop ≤ lexeme.span.start) :
    lexemesIn lexemes span = [] := by
  refine List.filter_eq_nil_iff.2 fun lexeme hlexeme hcontains => ?_
  have hsize := hnonempty lexeme hlexeme
  have hoff := hapart lexeme hlexeme
  rw [Span.contains_iff] at hcontains
  omega

/-- A span that contains the first and the last of some lexemes, and covers nothing else, has just
these inside. -/
theorem lexemesIn_eq {all lexemes rest front : List Lexeme} {first last : Lexeme} {span : Span}
    (horder : InOrder (all.map Lexeme.span)) (htogether : lexemes <:+: all)
    (hfirst : lexemes = first :: rest) (hlast : lexemes = front ++ [last])
    (hstart : span.contains first.span = true) (hstop : span.contains last.span = true)
    (hcovers : ∀ P : Span → Prop, CoverClosed P → (∀ lexeme ∈ lexemes, P lexeme.span) → P span) :
    lexemesIn all span = lexemes := by
  have hfirstSpan : lexemes.map Lexeme.span = first.span :: rest.map Lexeme.span := by
    rw [hfirst, List.map_cons]
  have hlastSpan : lexemes.map Lexeme.span = front.map Lexeme.span ++ [last.span] := by
    rw [hlast, List.map_append, List.map_singleton]
  have hwithin := (horder.sublist (htogether.sublist.map Lexeme.span)).within hfirstSpan hlastSpan
  obtain ⟨before, behind, rfl⟩ := htogether
  rw [List.map_append, List.map_append] at horder
  obtain ⟨hfront, hbehind, hapartBehind⟩ := InOrder.append_iff.1 horder
  obtain ⟨hbefore, -, hapart⟩ := InOrder.append_iff.1 hfront
  have hnoneBefore : lexemesIn before span = [] := by
    refine lexemesIn_eq_nil (List.forall_mem_map.1 hbefore.nonempty) fun lexeme hlexeme => ?_
    exact Or.inl (hcovers _ (CoverClosed.from_le lexeme.span.stop) fun other hother =>
      hapart _ (List.mem_map_of_mem hlexeme) _ (List.mem_map_of_mem hother))
  have hnoneBehind : lexemesIn behind span = [] := by
    refine lexemesIn_eq_nil (List.forall_mem_map.1 hbehind.nonempty) fun lexeme hlexeme => ?_
    exact Or.inr (hcovers _ (CoverClosed.to_le lexeme.span.start) fun other hother =>
      hapartBehind _ (List.mem_append_right _ (List.mem_map_of_mem hother)) _
        (List.mem_map_of_mem hlexeme))
  have hall : lexemesIn lexemes span = lexemes := by
    refine List.filter_eq_self.2 fun lexeme hlexeme => ?_
    have hends := hwithin _ (List.mem_map_of_mem hlexeme)
    rw [Span.contains_iff] at hstart hstop ⊢
    omega
  rw [lexemesIn] at hnoneBefore hnoneBehind hall ⊢
  rw [List.filter_append, List.filter_append, hnoneBefore, hnoneBehind, hall, List.nil_append,
    List.append_nil]

/-! ## The last lexeme of a part -/

mutual

/-- The last lexeme that a part takes is inside its span. -/
theorem place_contains_last : ∀ (part : WrittenPart) (opens : List Span),
    ∃ front last, part.taken = front ++ [last] ∧
      (part.place opens).span.contains last.span = true
  | .leaf leaf, _ => by
      refine ⟨[], leaf.lexeme, rfl, ?_⟩
      rw [WrittenPart.place, leaf.span_part]
      exact Span.contains_self _
  | .repeated leaf operator operatorSpan, _ =>
      ⟨[leaf.lexeme], operator.glyph.lexeme operatorSpan, rfl, Span.cover_contains_right _ _⟩
  | .labeled span label colon part, opens => by
      obtain ⟨front, last, htaken, hlast⟩ := place_contains_last part []
      refine ⟨(Glyph.ident label).lexeme span :: Glyph.colon.lexeme colon :: front, last, ?_, ?_⟩
      · rw [WrittenPart.taken, htaken]
        rfl
      · rw [WrittenPart.place, Part.span_withSpan]
        exact Span.contains_trans (Span.cover_contains_right _ _) hlast
  | .group opened choices closed, opens => by
      obtain ⟨last, left, hclosed⟩ := exists_first choices.trailing closed
      refine ⟨openAt opened :: choices.taken, closeAt last, ?_, ?_⟩
      · rw [WrittenPart.taken, hclosed]
        rfl
      · rw [WrittenPart.place, hclosed]
        exact Span.cover_contains_right _ _
  | .postfixed opened choices closed operator operatorSpan, _ =>
      ⟨openAt opened :: (choices.lexemes ++ [closeAt closed]),
        operator.glyph.lexeme operatorSpan, by simp [WrittenPart.taken],
        Span.cover_contains_right _ _⟩
  | .parens opened part _, opens => by
      obtain ⟨front, last, htaken, hlast⟩ := place_contains_last part (opens ++ [opened])
      refine ⟨openAt opened :: front, last, ?_, hlast⟩
      rw [WrittenPart.taken, htaken]
      rfl

theorem placeSequence_contains_last : ∀ (sequence : WrittenSequence) (opens : List Span),
    ∃ front last, sequence.taken = front ++ [last] ∧
      ∃ part ∈ sequence.place opens, part.span.contains last.span = true
  | .one part, opens => by
      obtain ⟨front, last, htaken, hlast⟩ := place_contains_last part opens
      exact ⟨front, last, htaken, _, List.mem_cons_self, hlast⟩
  | .more part rest, opens => by
      obtain ⟨front, last, htaken, other, hother, hlast⟩ := placeSequence_contains_last rest []
      refine ⟨part.lexemes ++ front, last, ?_, other, List.mem_cons_of_mem _ hother, hlast⟩
      rw [WrittenSequence.taken, htaken, List.append_assoc]
  | .parens opened sequence _, opens => by
      obtain ⟨front, last, htaken, hlast⟩ :=
        placeSequence_contains_last sequence (opens ++ [opened])
      refine ⟨openAt opened :: front, last, ?_, hlast⟩
      rw [WrittenSequence.taken, htaken]
      rfl

theorem placeChoices_contains_last : ∀ (choices : WrittenChoices) (opens : List Span),
    ∃ front last, choices.taken = front ++ [last] ∧
      ∃ sequence ∈ choices.place opens, (sequenceSpan sequence).contains last.span = true
  | .one sequence, opens => by
      obtain ⟨front, last, htaken, part, hpart, hlast⟩ :=
        placeSequence_contains_last sequence opens
      exact ⟨front, last, htaken, _, List.mem_cons_self,
        Span.contains_trans (coverAll_contains (List.mem_map_of_mem hpart)) hlast⟩
  | .more sequence bar rest, opens => by
      obtain ⟨front, last, htaken, other, hother, hlast⟩ := placeChoices_contains_last rest []
      refine ⟨sequence.lexemes ++ Glyph.pipe.lexeme bar :: front, last, ?_, other,
        List.mem_cons_of_mem _ hother, hlast⟩
      rw [WrittenChoices.taken, htaken, List.append_assoc, List.cons_append]
  | .parens opened choices _, opens => by
      obtain ⟨front, last, htaken, hlast⟩ := placeChoices_contains_last choices (opens ++ [opened])
      refine ⟨openAt opened :: front, last, ?_, hlast⟩
      rw [WrittenChoices.taken, htaken]
      rfl

end

/-! ## The lexemes inside the span of a part -/

/-- The lexemes stand together among all lexemes, and the opening parentheses that are kept for them
are right in front. -/
structure Adjacent (all : List Lexeme) (opens : List Span) (lexemes : List Lexeme) : Prop where
  together : opens.map openAt ++ lexemes <:+: all
  inOrder : InOrder (all.map Lexeme.span)

namespace Adjacent

variable {all : List Lexeme} {opens : List Span} {lexemes more : List Lexeme}

theorem keep {opened : Span} (h : Adjacent all opens (openAt opened :: lexemes)) :
    Adjacent all (opens ++ [opened]) lexemes := by
  refine ⟨?_, h.inOrder⟩
  rw [List.map_append, List.append_assoc]
  exact h.together

theorem left (h : Adjacent all opens (lexemes ++ more)) : Adjacent all opens lexemes := by
  have htogether := h.together
  rw [← List.append_assoc] at htogether
  exact ⟨(List.prefix_append _ _).isInfix.trans htogether, h.inOrder⟩

theorem right (h : Adjacent all opens (lexemes ++ more)) : Adjacent all [] more := by
  have htogether := h.together
  rw [← List.append_assoc] at htogether
  exact ⟨(List.suffix_append _ _).isInfix.trans htogether, h.inOrder⟩

theorem alone (h : Adjacent all opens lexemes) : Adjacent all [] lexemes :=
  ⟨(List.suffix_append _ _).isInfix.trans h.together, h.inOrder⟩

/-- What a part opens is kept behind the others, and the first one is taken. -/
theorem inner {opened : Span} (h : Adjacent all opens (openAt opened :: (lexemes ++ more))) :
    Adjacent all (opens ++ [opened]).tail lexemes := by
  obtain ⟨first, kept, hopens⟩ := exists_first opens opened
  have hkept := h.keep.left
  rw [hopens] at hkept ⊢
  exact ⟨(List.suffix_cons _ _).isInfix.trans hkept.together, h.inOrder⟩

end Adjacent

/-- A part covers the first of the parentheses that are kept for it, its own behind the others. -/
theorem coverOpen_contains_first {opens : List Span} {opened span : Span}
    {lexemes : List Lexeme} : ∀ first ∈ (opens.map openAt ++ openAt opened :: lexemes).head?,
      (coverOpen (opens ++ [opened]).head? span).contains first.span = true := by
  intro first hfirst
  cases opens with
  | nil =>
      obtain rfl := Option.some.inj hfirst
      exact Span.cover_contains_left _ _
  | cons kept opens =>
      obtain rfl := Option.some.inj hfirst
      exact Span.cover_contains_left _ _

theorem length_tail_keep (opens : List Span) (opened : Span) :
    (opens ++ [opened]).tail.length = opens.length := by
  simp

theorem coverClose_contains (span : Span) (closed : Option Span) :
    (coverClose span closed).contains span = true := by
  cases closed with
  | none => exact Span.contains_self _
  | some paren => exact Span.cover_contains_left _ _

/-- The span of a part has inside what the part takes and the opening parentheses that are kept for
it, if it has the first lexeme of all these. -/
theorem lexemesIn_place {all : List Lexeme} {part : WrittenPart} {opens : List Span}
    (h : Adjacent all opens part.lexemes)
    (hstart : ∀ first ∈ (opens.map openAt ++ part.taken).head?,
      (part.place opens).span.contains first.span = true) :
    lexemesIn all (part.place opens).span = opens.map openAt ++ part.taken := by
  rw [lexemes_part] at h
  obtain ⟨front, last, htaken, hlast⟩ := place_contains_last part opens
  obtain ⟨first, rest, hfirst⟩ : ∃ first rest, opens.map openAt ++ part.taken = first :: rest := by
    refine List.exists_cons_of_ne_nil ?_
    simp [htaken]
  refine lexemesIn_eq h.inOrder h.left.together hfirst (by rw [htaken, ← List.append_assoc])
    (hstart first (by rw [hfirst]; rfl)) hlast ?_
  intro P hP hlexemes
  obtain ⟨hopens, htakes⟩ := List.forall_mem_append.1 hlexemes
  exact place_covers hP part opens
    (fun span hspan => hopens (openAt span) (List.mem_map_of_mem hspan)) htakes

/-- At the end of the span of such a part, as many parentheses are open as are kept for it, and as
the part leaves closing ones over. -/
theorem unclosed_place {all : List Lexeme} {part : WrittenPart} {opens : List Span}
    (h : Adjacent all opens part.lexemes)
    (hstart : ∀ first ∈ (opens.map openAt ++ part.taken).head?,
      (part.place opens).span.contains first.span = true) :
    unclosed 0 (lexemesIn all (part.place opens).span) =
      some (opens.length + part.trailing.length) := by
  have htaken := unclosed_taken_part part opens.length []
  rw [List.append_nil] at htaken
  rw [lexemesIn_place h hstart, unclosed_opens, Nat.zero_add, htaken, unclosed_nil]

/-! ## Composite parts -/

mutual

/-- How many parentheses are open at the ends of the spans of a part and of the composite parts
inside, in pre-order, with `opens` parentheses kept in front. -/
def WrittenPart.excess (opens : Nat) : WrittenPart → List Nat
  | .leaf _ => []
  | .repeated _ _ _ => [opens]
  | .labeled _ _ _ part => (part.excess 0).modifyHead fun _ => part.trailing.length
  | .group _ choices _ => (opens + choices.trailing.length) :: choices.excess opens
  | .postfixed _ choices _ _ _ => opens :: choices.excess opens
  | .parens _ part _ => part.excess (opens + 1)

/-- The same for all parts of a sequence. -/
def WrittenSequence.excess (opens : Nat) : WrittenSequence → List Nat
  | .one part => part.excess opens
  | .more part rest => part.excess opens ++ rest.excess 0
  | .parens _ sequence _ => sequence.excess (opens + 1)

/-- The same for all parts of alternatives. -/
def WrittenChoices.excess (opens : Nat) : WrittenChoices → List Nat
  | .one sequence => sequence.excess opens
  | .more sequence _ rest => sequence.excess opens ++ rest.excess 0
  | .parens _ choices _ => choices.excess (opens + 1)

end

theorem composites_withSpan (part : Part) (span : Span) :
    (part.withSpan span).composites = part.composites.modifyHead (·.withSpan span) := by
  cases part with
  | terminal => rfl
  | nonTerminal => rfl
  | composite => rfl

section Composites

variable {all : List Lexeme}

/-- A composite part is counted in front of what is inside. -/
theorem unclosed_composite {span : Span} {times : Multiplicity} {choices : Choices} {n : Nat}
    {numbers : List Nat} (hwhole : unclosed 0 (lexemesIn all span) = some n)
    (hinside : (compositeParts choices).map (fun inner => unclosed 0 (lexemesIn all inner.span)) =
      numbers.map some) :
    (Part.composite span times choices none).composites.map
        (fun inner => unclosed 0 (lexemesIn all inner.span)) = (n :: numbers).map some := by
  have hcomposites : (Part.composite span times choices none).composites =
      .composite span times choices none :: compositeParts choices := rfl
  rw [hcomposites, List.map_cons, List.map_cons, hinside]
  exact congrArg (· :: numbers.map some) hwhole

/-- A label changes the count for the part itself only. -/
theorem unclosed_withSpan {part : Part} {span : Span} {n : Nat} {numbers : List Nat}
    (hwhole : unclosed 0 (lexemesIn all span) = some n)
    (hpart : part.composites.map (fun inner => unclosed 0 (lexemesIn all inner.span)) =
      numbers.map some) :
    (part.withSpan span).composites.map (fun inner => unclosed 0 (lexemesIn all inner.span)) =
      (numbers.modifyHead fun _ => n).map some := by
  rw [composites_withSpan]
  cases hcomposites : part.composites with
  | nil =>
      rw [hcomposites] at hpart
      rw [List.map_eq_nil_iff.1 hpart.symm]
      rfl
  | cons first inside =>
      rw [hcomposites] at hpart
      obtain ⟨m, others, rfl, -, hothers⟩ := List.map_eq_cons_iff.1 hpart.symm
      rw [List.modifyHead_cons, List.modifyHead_cons, List.map_cons, List.map_cons,
        Part.span_withSpan, hwhole, hothers]

mutual

/-- The parentheses in the spans of composite parts are open or closed as they are counted. -/
theorem unclosed_part : ∀ (part : WrittenPart) (opens : List Span),
    Adjacent all opens part.lexemes →
    (part.place opens).composites.map (fun inner => unclosed 0 (lexemesIn all inner.span)) =
      (part.excess opens.length).map some
  | .leaf leaf, _, _ => by cases leaf <;> rfl
  | .repeated leaf operator operatorSpan, opens, h => by
      have hinside : compositeParts [[leaf.part]] = [] := by cases leaf <;> rfl
      have hwhole := unclosed_place h (by
        intro first hfirst
        refine Span.contains_trans (Span.cover_contains_left _ _) ?_
        cases opens with
        | nil =>
            obtain rfl := Option.some.inj hfirst
            exact Span.contains_self _
        | cons opened opens =>
            obtain rfl := Option.some.inj hfirst
            exact Span.cover_contains_left _ _)
      have hnone : (compositeParts [[leaf.part]]).map
          (fun inner => unclosed 0 (lexemesIn all inner.span)) = ([] : List Nat).map some := by
        rw [hinside]
        rfl
      exact unclosed_composite hwhole hnone
  | .labeled span label colon part, opens, h => by
      -- The label does not take the parentheses in front of it, and hands none on.
      have halone : Adjacent all [] (WrittenPart.labeled span label colon part).lexemes := h.alone
      have hwhole := unclosed_place halone (by
        intro first hfirst
        obtain rfl := Option.some.inj hfirst
        rw [WrittenPart.place, Part.span_withSpan]
        exact Span.cover_contains_left _ _)
      rw [WrittenPart.place, Part.span_withSpan, List.length_nil, Nat.zero_add] at hwhole
      have hinner : Adjacent all [] ([(Glyph.ident label).lexeme span,
        Glyph.colon.lexeme colon] ++ part.lexemes) := halone
      exact unclosed_withSpan hwhole (unclosed_part part [] hinner.right)
  | .group opened choices closed, opens, h => by
      have hchoices := unclosed_choices choices _ h.inner
      have hwhole := unclosed_place h fun first hfirst =>
        Span.contains_trans (coverClose_contains _ _) (coverOpen_contains_first first hfirst)
      have hlength : (choices.trailing ++ [closed]).tail.length = choices.trailing.length := by
        simp
      rw [length_tail_keep] at hchoices
      rw [WrittenPart.trailing, hlength] at hwhole
      exact unclosed_composite hwhole hchoices
  | .postfixed opened choices closed operator operatorSpan, opens, h => by
      have hchoices := unclosed_choices choices _ h.inner
      have hwhole := unclosed_place h fun first hfirst =>
        Span.contains_trans (Span.cover_contains_left _ _) (coverOpen_contains_first first hfirst)
      rw [length_tail_keep] at hchoices
      exact unclosed_composite hwhole hchoices
  | .parens opened part closed, opens, h => by
      have hpart := unclosed_part part (opens ++ [opened]) h.keep.left
      rw [List.length_append, List.length_singleton] at hpart
      exact hpart

theorem unclosed_sequence : ∀ (sequence : WrittenSequence) (opens : List Span),
    Adjacent all opens sequence.lexemes →
    (sequenceComposites (sequence.place opens)).map
        (fun inner => unclosed 0 (lexemesIn all inner.span)) =
      (sequence.excess opens.length).map some
  | .one part, opens, h => by
      rw [WrittenSequence.place, sequenceComposites_cons, sequenceComposites_nil, List.append_nil]
      exact unclosed_part part opens h
  | .more part rest, opens, h => by
      rw [WrittenSequence.place, sequenceComposites_cons, List.map_append,
        unclosed_part part opens h.left, unclosed_sequence rest [] h.right, ← List.map_append]
      rfl
  | .parens opened sequence closed, opens, h => by
      have hsequence := unclosed_sequence sequence (opens ++ [opened]) h.keep.left
      rw [List.length_append, List.length_singleton] at hsequence
      exact hsequence

theorem unclosed_choices : ∀ (choices : WrittenChoices) (opens : List Span),
    Adjacent all opens choices.lexemes →
    (compositeParts (choices.place opens)).map
        (fun inner => unclosed 0 (lexemesIn all inner.span)) =
      (choices.excess opens.length).map some
  | .one sequence, opens, h => by
      rw [WrittenChoices.place, compositeParts_cons, compositeParts_nil, List.append_nil]
      exact unclosed_sequence sequence opens h
  | .more sequence bar rest, opens, h => by
      have hrest : Adjacent all [] ([Glyph.pipe.lexeme bar] ++ rest.lexemes) := h.right
      rw [WrittenChoices.place, compositeParts_cons, List.map_append,
        unclosed_sequence sequence opens h.left, unclosed_choices rest [] hrest.right,
        ← List.map_append]
      rfl
  | .parens opened choices closed, opens, h => by
      have hchoices := unclosed_choices choices (opens ++ [opened]) h.keep.left
      rw [List.length_append, List.length_singleton] at hchoices
      exact hchoices

end

end Composites

/-! ## Productions -/

/-- The lexemes of a production, and the closing parentheses at its end that no part takes. -/
theorem lexemes_production (production : WrittenProduction) :
    production.lexemes = ((Glyph.ident production.name).lexeme production.nameSpan ::
      Glyph.eq.lexeme production.eqSpan :: production.choices.taken) ++
        production.choices.trailing.map closeAt := by
  rw [WrittenProduction.lexemes, lexemes_choices]
  rfl

/-- The closing parentheses that no part takes are outside of the span of the production, all else
is inside. -/
theorem lexemesIn_production {all : List Lexeme} {production : WrittenProduction}
    (h : Adjacent all [] production.lexemes) : lexemesIn all production.place.span =
      (Glyph.ident production.name).lexeme production.nameSpan ::
        Glyph.eq.lexeme production.eqSpan :: production.choices.taken := by
  obtain ⟨front, last, htaken, sequence, hsequence, hlast⟩ :=
    placeChoices_contains_last production.choices []
  have hsplit : (Glyph.ident production.name).lexeme production.nameSpan ::
      Glyph.eq.lexeme production.eqSpan :: production.choices.taken =
        ((Glyph.ident production.name).lexeme production.nameSpan ::
          Glyph.eq.lexeme production.eqSpan :: front) ++ [last] := by
    rw [htaken]
    rfl
  have hbody := Span.contains_trans (coverAll_contains (List.mem_map_of_mem hsequence)) hlast
  rw [lexemes_production] at h
  refine lexemesIn_eq h.inOrder h.left.together rfl hsplit (Span.cover_contains_left _ _)
    (Span.contains_trans (Span.cover_contains_right _ _) hbody) ?_
  intro P hP hlexemes
  obtain ⟨hname, hrest⟩ := List.forall_mem_cons.1 hlexemes
  have hchoices := placeChoices_covers hP production.choices [] (List.forall_mem_nil _)
    (List.forall_mem_cons.1 hrest).2
  exact hP _ _ hname (hchoices.choicesSpan hP)

/-- The parentheses inside the spans of a production: which ones it leaves outside, how many are
still open where it ends, and how many are where its composite parts end. -/
structure ParenthesesInside (all : List Lexeme) (production : WrittenProduction) : Prop where
  outside : production.lexemes = lexemesIn all production.place.span ++
    production.choices.trailing.map closeAt
  left_open : unclosed 0 (lexemesIn all production.place.span) =
    some production.choices.trailing.length
  parts_left_open : (compositeParts (production.choices.place [])).map
    (fun part => unclosed 0 (lexemesIn all part.span)) = (production.choices.excess 0).map some

theorem parenthesesInside {all : List Lexeme} {production : WrittenProduction}
    (h : Adjacent all [] production.lexemes) : ParenthesesInside all production := by
  have hchoices : Adjacent all [] ([(Glyph.ident production.name).lexeme production.nameSpan,
    Glyph.eq.lexeme production.eqSpan] ++ production.choices.lexemes) := h
  refine ⟨?_, ?_, unclosed_choices production.choices [] hchoices.right⟩
  · rw [lexemesIn_production h, lexemes_production]
  · have htaken := unclosed_taken_choices production.choices 0 []
    rw [List.append_nil, Nat.zero_add] at htaken
    rw [lexemesIn_production h, unclosed_ident, unclosed_eq, htaken, unclosed_nil]

/-- The spans of a production and of its composite parts have no half of a pair inside. -/
def BalancedInside (all : List Lexeme) (production : Production) : Prop :=
  Balanced (lexemesIn all production.span) ∧
    ∀ part ∈ compositeParts (production.choices?.getD []), Balanced (lexemesIn all part.span)

/-- All is balanced where no closing parenthesis is left over and no opening one is left open. -/
theorem ParenthesesInside.balanced_iff {all : List Lexeme} {production : WrittenProduction}
    (h : ParenthesesInside all production) : BalancedInside all production.place ↔
      production.choices.trailing = [] ∧ ∀ n ∈ production.choices.excess 0, n = 0 := by
  have hwhole : Balanced (lexemesIn all production.place.span) ↔
      production.choices.trailing = [] := by
    rw [Balanced, h.left_open, Option.some.injEq, List.length_eq_zero_iff]
  have hparts : (∀ part ∈ compositeParts (production.choices.place []),
      Balanced (lexemesIn all part.span)) ↔ ∀ n ∈ production.choices.excess 0, n = 0 := by
    have hmapped : (∀ depth ∈ (compositeParts (production.choices.place [])).map
        (fun part => unclosed 0 (lexemesIn all part.span)), depth = some 0) ↔
          ∀ depth ∈ (production.choices.excess 0).map some, depth = some 0 := by
      rw [h.parts_left_open]
    rw [List.forall_mem_map, List.forall_mem_map] at hmapped
    simp only [Option.some.injEq] at hmapped
    exact hmapped
  exact and_congr hwhole hparts

/-- **Which parentheses a span has half of.** None is closed inside a span that was not opened
inside of it. How many are opened and not closed is told by what was written, and so is whether
there are any. -/
theorem ofText_unclosed {text : String} {grammar : Grammar}
    (h : Grammar.ofText text = .ok grammar) : ∃ lexemes productions,
      tokenize text = .ok lexemes ∧
      lexemes.lexemes = writtenLexemes productions ∧
      grammar.productions = productions.map WrittenProduction.place ∧
      ∀ production ∈ productions, ParenthesesInside lexemes.lexemes production ∧
        (BalancedInside lexemes.lexemes production.place ↔
          production.choices.trailing = [] ∧ ∀ n ∈ production.choices.excess 0, n = 0) := by
  obtain ⟨definitions, lexemes, productions, hwritten, rfl⟩ := exists_written_of_ofText h
  refine ⟨lexemes, productions, hwritten.tokenize, hwritten.lexemes_eq, rfl, ?_⟩
  intro production hproduction
  have hinside := parenthesesInside ⟨(hwritten.situated hproduction).together,
    (inOrder_of_tokenize hwritten.tokenize).1⟩
  exact ⟨hinside, hinside.balanced_iff⟩

/-- Redundant parentheses around an option and what follows, and around a whole body. -/
theorem ofText_unclosed_redundant : ∃ grammar lexemes productions,
    Grammar.ofText "A = (A? A) | A B = ('b')" = .ok grammar ∧
      tokenize "A = (A? A) | A B = ('b')" = .ok lexemes ∧
      lexemes.lexemes = writtenLexemes productions ∧
      grammar.productions = productions.map WrittenProduction.place ∧
      ∀ production ∈ productions, ParenthesesInside lexemes.lexemes production ∧
        (BalancedInside lexemes.lexemes production.place ↔
          production.choices.trailing = [] ∧ ∀ n ∈ production.choices.excess 0, n = 0) := by
  have hread : Grammar.ofText "A = (A? A) | A B = ('b')" = .ok ⟨[⟨"A", ⟨0, 14⟩, .choices
      [[.composite ⟨4, 7⟩ .optional [[.nonTerminal ⟨5, 6⟩ "A" none]] none,
          .nonTerminal ⟨8, 9⟩ "A" none], [.nonTerminal ⟨13, 14⟩ "A" none]]⟩,
      ⟨"B", ⟨15, 23⟩, .choices [[.terminal ⟨20, 23⟩ "b" none]]⟩], []⟩ := by cbv
  obtain ⟨lexemes, productions, htokenize, hlexemes, hplaced, hinside⟩ := ofText_unclosed hread
  exact ⟨_, lexemes, productions, hread, htokenize, hlexemes, hplaced, hinside⟩

/-- The option `A?` has the parenthesis in front of it in its span and not the one that closes it,
and the production with a body in parentheses stops before the last of them, so that a comment
inside the parentheses is not inside the production. -/
theorem not_balanced_redundant :
    (∃ grammar lexemes, Grammar.ofText "A = (A? A) | A" = .ok grammar ∧
      tokenize "A = (A? A) | A" = .ok lexemes ∧
      ∃ production ∈ grammar.productions,
        ∃ part ∈ compositeParts (production.choices?.getD []),
          ¬ Balanced (lexemesIn lexemes.lexemes part.span)) ∧
    ∃ grammar lexemes, Grammar.ofText "A = ('b' // x\n)" = .ok grammar ∧
      tokenize "A = ('b' // x\n)" = .ok lexemes ∧
      ∃ production ∈ grammar.productions,
        ¬ Balanced (lexemesIn lexemes.lexemes production.span) ∧
        commentsIn grammar.comments production.span ≠ grammar.comments := by
  have hoption : Grammar.ofText "A = (A? A) | A" = .ok ⟨[⟨"A", ⟨0, 14⟩, .choices
      [[.composite ⟨4, 7⟩ .optional [[.nonTerminal ⟨5, 6⟩ "A" none]] none,
          .nonTerminal ⟨8, 9⟩ "A" none], [.nonTerminal ⟨13, 14⟩ "A" none]]⟩], []⟩ := by cbv
  have hoptionLexemes : tokenize "A = (A? A) | A" = .ok ⟨[⟨.ident, ⟨0, 1⟩, "A"⟩,
      ⟨.eq, ⟨2, 3⟩, "="⟩, ⟨.openParen, ⟨4, 5⟩, "("⟩, ⟨.ident, ⟨5, 6⟩, "A"⟩,
      ⟨.question, ⟨6, 7⟩, "?"⟩, ⟨.ident, ⟨8, 9⟩, "A"⟩, ⟨.closeParen, ⟨9, 10⟩, ")"⟩,
      ⟨.pipe, ⟨11, 12⟩, "|"⟩, ⟨.ident, ⟨13, 14⟩, "A"⟩], []⟩ := by cbv
  have hbody : Grammar.ofText "A = ('b' // x\n)" = .ok ⟨[⟨"A", ⟨0, 8⟩, .choices
      [[.terminal ⟨5, 8⟩ "b" none]]⟩], [⟨⟨9, 13⟩, " x"⟩]⟩ := by cbv
  have hbodyLexemes : tokenize "A = ('b' // x\n)" = .ok ⟨[⟨.ident, ⟨0, 1⟩, "A"⟩,
      ⟨.eq, ⟨2, 3⟩, "="⟩, ⟨.openParen, ⟨4, 5⟩, "("⟩, ⟨.literal, ⟨5, 8⟩, "b"⟩,
      ⟨.closeParen, ⟨14, 15⟩, ")"⟩], [⟨⟨9, 13⟩, " x"⟩]⟩ := by cbv
  refine ⟨⟨_, _, hoption, hoptionLexemes, _, List.mem_cons_self, _, List.mem_cons_self, ?_⟩,
    ⟨_, _, hbody, hbodyLexemes, _, List.mem_cons_self, ?_, ?_⟩⟩
  · decide
  · decide
  · decide

end TreeSmith

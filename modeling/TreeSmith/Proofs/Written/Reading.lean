import TreeSmith.Proofs.Rule.Folded
import TreeSmith.Proofs.Written.Basic

/-!
# TreeSmith.Proofs.Written.Reading

**What the notation's reader reads is written.** Whenever a rule is read from tokens, the lexemes
of these tokens are a written body that means what the rule says (`takes_readRule`), and a whole
text in the notation is a list of written productions (`written_of_readDefinitions`).

A rule in parentheses can be had as a part, as a sequence and as alternatives, each with the
reading that the rule has there (`AtomReads`). Without parentheses, a sequence is no part and an
alternation is no sequence, so what is read between two parentheses or bars says less
(`SequenceReads`, `RuleReads`).
-/

namespace TreeSmith

/-! ## Tokens taken -/

/-- Reading from `tokens` up to `rest` takes lexemes that are `what`. -/
def Takes (tokens rest : List RuleToken) (what : List Lexeme → Prop) : Prop :=
  ∀ lexemes, List.Forall₂ Spells tokens lexemes →
    ∃ used left, lexemes = used ++ left ∧ List.Forall₂ Spells rest left ∧ what used

namespace Takes

variable {tokens between rest : List RuleToken} {what other : List Lexeme → Prop}

theorem nothing (h : what []) : Takes tokens tokens what :=
  fun lexemes hlexemes => ⟨[], lexemes, rfl, hlexemes, h⟩

theorem mono (h : Takes tokens rest what) (himp : ∀ used, what used → other used) :
    Takes tokens rest other := by
  intro lexemes hlexemes
  obtain ⟨used, left, rfl, hleft, hused⟩ := h lexemes hlexemes
  exact ⟨used, left, rfl, hleft, himp used hused⟩

/-- A token takes its own lexeme. -/
theorem token {token : RuleToken} (h : ∀ span, Takes tokens rest
    fun used => what (token.glyph.lexeme span :: used)) : Takes (token :: tokens) rest what := by
  intro lexemes hlexemes
  obtain ⟨lexeme, behind, hspells, hbehind, rfl⟩ := List.forall₂_cons_left_iff.1 hlexemes
  obtain ⟨used, left, rfl, hleft, hused⟩ := h lexeme.span behind hbehind
  refine ⟨lexeme :: used, left, rfl, hleft, ?_⟩
  rw [hspells]
  exact hused

theorem andThen (h : Takes tokens between what) (hrest : ∀ used, what used →
    Takes between rest fun more => other (used ++ more)) : Takes tokens rest other := by
  intro lexemes hlexemes
  obtain ⟨used, left, rfl, hleft, hused⟩ := h lexemes hlexemes
  obtain ⟨more, last, rfl, hlast, hmore⟩ := hrest used hused left hleft
  exact ⟨used ++ more, last, (List.append_assoc _ _ _).symm, hlast, hmore⟩

end Takes

/-! ## What is read -/

/-- Is the token one of the lexemes? -/
def Among (lexemes : List Lexeme) (glyph : Glyph) : Prop :=
  ∃ span, glyph.lexeme span ∈ lexemes

theorem Among.mono {lexemes more : List Lexeme} (hsub : lexemes ⊆ more) (glyph : Glyph)
    (h : Among lexemes glyph) : Among more glyph := by
  obtain ⟨span, hmem⟩ := h
  exact ⟨span, hsub hmem⟩

/-- The lexemes are written for the rule wherever it may stand. -/
structure AtomReads (rule : Rule) (used : List Lexeme) : Prop where
  folded : rule.FoldedOver (Among used)
  part : ∃ written : WrittenPart, written.lexemes = used ∧ written.outline = rule.views.part
  sequence : ∃ written : WrittenSequence,
    written.lexemes = used ∧ written.outlines = rule.views.sequence
  choices : ∃ written : WrittenChoices,
    written.lexemes = used ∧ written.outlines = rule.views.choices

/-- The lexemes are written for the rule where a sequence may stand. -/
inductive SequenceReads : Rule → List Lexeme → Prop where
  | atom {rule : Rule} {used : List Lexeme} (h : AtomReads rule used) : SequenceReads rule used
  | atoms {rules : List Rule} (written : WrittenSequence)
      (h : written.outlines = rules.map fun rule => rule.views.part)
      (hfolded : (Rule.seq rules).FoldedOver (Among written.lexemes)) :
      SequenceReads (.seq rules) written.lexemes

/-- The lexemes are written for the rule where alternatives may stand. -/
inductive RuleReads : Rule → List Lexeme → Prop where
  | sequence {rule : Rule} {used : List Lexeme} (h : SequenceReads rule used) :
      RuleReads rule used
  | alternatives {rules : List Rule} (written : WrittenChoices)
      (h : written.outlines = rules.map fun rule => rule.views.sequence)
      (hfolded : (Rule.alt rules).FoldedOver (Among written.lexemes)) :
      RuleReads (.alt rules) written.lexemes

theorem views_seq (rules : List Rule) : (Rule.seq rules).views =
    .ofSequence (rules.map fun rule => rule.views.part) := by
  simp [Rule.views, Function.comp_def]

theorem views_alt (rules : List Rule) : (Rule.alt rules).views =
    .ofChoices (rules.map fun rule => rule.views.sequence) := by
  simp [Rule.views, Function.comp_def]

/-- What is written as one part is written for the rule wherever it may stand. -/
theorem AtomReads.ofPart {rule : Rule} (written : WrittenPart)
    (hfolded : rule.FoldedOver (Among written.lexemes))
    (h : rule.views = .ofPart written.outline) : AtomReads rule written.lexemes := by
  refine ⟨hfolded, ⟨written, rfl, ?_⟩, ⟨.one written, rfl, ?_⟩, ⟨.one (.one written), rfl, ?_⟩⟩
  · rw [h]
    rfl
  · rw [h]
    rfl
  · rw [h]
    rfl

theorem SequenceReads.exists_sequence {rule : Rule} {used : List Lexeme}
    (h : SequenceReads rule used) : ∃ written : WrittenSequence,
      written.lexemes = used ∧ written.outlines = rule.views.sequence := by
  cases h with
  | atom h => exact h.sequence
  | atoms written h _ => exact ⟨written, rfl, by rw [views_seq]; exact h⟩

theorem RuleReads.exists_choices {rule : Rule} {used : List Lexeme} (h : RuleReads rule used) :
    ∃ written : WrittenChoices, written.lexemes = used ∧
      written.outlines = rule.views.choices := by
  cases h with
  | sequence h =>
      cases h with
      | atom h => exact h.choices
      | atoms written h _ => exact ⟨.one written, rfl, by rw [views_seq, ← h]; rfl⟩
  | alternatives written h _ => exact ⟨written, rfl, by rw [views_alt]; exact h⟩

theorem SequenceReads.folded {rule : Rule} {used : List Lexeme} (h : SequenceReads rule used) :
    rule.FoldedOver (Among used) := by
  cases h with
  | atom h => exact h.folded
  | atoms _ _ hfolded => exact hfolded

theorem RuleReads.folded {rule : Rule} {used : List Lexeme} (h : RuleReads rule used) :
    rule.FoldedOver (Among used) := by
  cases h with
  | sequence h => exact h.folded
  | alternatives _ _ hfolded => exact hfolded

/-- In parentheses a rule is written wherever it may stand. -/
theorem RuleReads.parens {rule : Rule} {used : List Lexeme} (h : RuleReads rule used)
    (opened closed : Span) : AtomReads rule (openAt opened :: (used ++ [closeAt closed])) := by
  have hfolded : rule.FoldedOver (Among (openAt opened :: (used ++ [closeAt closed]))) :=
    h.folded.mono (Among.mono fun _ hmem => List.mem_cons_of_mem _ (List.mem_append_left _ hmem))
  cases h with
  | sequence h =>
      cases h with
      | atom h =>
          -- Around an atom they are redundant in all three places.
          obtain ⟨-, ⟨part, hpart, hpartOutline⟩, ⟨sequence, hsequence, hsequenceOutlines⟩,
            ⟨choices, hchoices, hchoicesOutlines⟩⟩ := h
          refine ⟨hfolded, ⟨.parens opened part closed, ?_, hpartOutline⟩,
            ⟨.parens opened sequence closed, ?_, hsequenceOutlines⟩,
            ⟨.parens opened choices closed, ?_, hchoicesOutlines⟩⟩
          · rw [WrittenPart.lexemes, hpart]
          · rw [WrittenSequence.lexemes, hsequence]
          · rw [WrittenChoices.lexemes, hchoices]
      | atoms written h _ =>
          -- Around a sequence they are a group where a part is asked for.
          refine ⟨hfolded, ⟨.group opened (.one written) closed, rfl, ?_⟩,
            ⟨.parens opened written closed, rfl, ?_⟩,
            ⟨.parens opened (.one written) closed, rfl, ?_⟩⟩
          · rw [views_seq, ← h]
            rfl
          · rw [views_seq, ← h]
            rfl
          · rw [views_seq, ← h]
            rfl
  | alternatives written h _ =>
      -- Around alternatives they are a group unless alternatives are asked for.
      refine ⟨hfolded, ⟨.group opened written closed, rfl, ?_⟩,
        ⟨.one (.group opened written closed), rfl, ?_⟩,
        ⟨.parens opened written closed, rfl, ?_⟩⟩
      · rw [views_alt, ← h]
        rfl
      · rw [views_alt, ← h]
        rfl
      · rw [views_alt, ← h]
        rfl

/-- The lexemes are atoms that go on behind a first one. -/
inductive AtomsRead : List Rule → List Lexeme → Prop where
  | nil : AtomsRead [] []
  | cons {rule : Rule} {rules : List Rule} {used more : List Lexeme} (h : AtomReads rule used)
      (hmore : AtomsRead rules more) : AtomsRead (rule :: rules) (used ++ more)

/-- The lexemes are alternatives that go on behind a first one, each after its bar. -/
inductive AlternativesRead : List Rule → List Lexeme → Prop where
  | nil : AlternativesRead [] []
  | cons {rule : Rule} {rules : List Rule} {used more : List Lexeme} (bar : Span)
      (h : SequenceReads rule used) (hmore : AlternativesRead rules more) :
      AlternativesRead (rule :: rules) (Glyph.pipe.lexeme bar :: (used ++ more))

theorem AtomsRead.folded {rules : List Rule} {used : List Lexeme} (h : AtomsRead rules used) :
    AllFoldedOver (Among used) rules := by
  induction h with
  | nil => trivial
  | cons h _ ih =>
      exact ⟨h.folded.mono (Among.mono (List.subset_append_left _ _)),
        ih.mono (Among.mono (List.subset_append_right _ _))⟩

theorem AlternativesRead.folded {rules : List Rule} {used : List Lexeme}
    (h : AlternativesRead rules used) : AllFoldedOver (Among used) rules := by
  induction h with
  | nil => trivial
  | cons bar h _ ih =>
      have hsub := List.subset_cons_self (Glyph.pipe.lexeme bar)
      exact ⟨h.folded.mono (Among.mono (List.Subset.trans (List.subset_append_left _ _) (hsub _))),
        ih.mono (Among.mono (List.Subset.trans (List.subset_append_right _ _) (hsub _)))⟩

theorem AtomsRead.exists_sequence {rules : List Rule} {used : List Lexeme}
    (h : AtomsRead rules used) (first : WrittenPart) : ∃ written : WrittenSequence,
      written.lexemes = first.lexemes ++ used ∧
        written.outlines = first.outline :: rules.map fun rule => rule.views.part := by
  induction h generalizing first with
  | nil => exact ⟨.one first, (List.append_nil _).symm, rfl⟩
  | cons h _ ih =>
      obtain ⟨part, rfl, hpart⟩ := h.part
      obtain ⟨written, hwritten, houtlines⟩ := ih part
      refine ⟨.more first written, ?_, ?_⟩
      · rw [WrittenSequence.lexemes, hwritten]
      · rw [WrittenSequence.outlines, houtlines, hpart, List.map_cons]

theorem AlternativesRead.exists_choices {rules : List Rule} {used : List Lexeme}
    (h : AlternativesRead rules used) (first : WrittenSequence) : ∃ written : WrittenChoices,
      written.lexemes = first.lexemes ++ used ∧
        written.outlines = first.outlines :: rules.map fun rule => rule.views.sequence := by
  induction h generalizing first with
  | nil => exact ⟨.one first, (List.append_nil _).symm, rfl⟩
  | cons bar h _ ih =>
      obtain ⟨sequence, rfl, hsequence⟩ := h.exists_sequence
      obtain ⟨written, hwritten, houtlines⟩ := ih sequence
      refine ⟨.more first bar written, ?_, ?_⟩
      · rw [WrittenChoices.lexemes, hwritten]
      · rw [WrittenChoices.outlines, houtlines, hsequence, List.map_cons]

/-- One atom and those behind it. -/
theorem SequenceReads.ofAtoms {first : Rule} {others : List Rule} {used more : List Lexeme}
    (h : AtomReads first used) (hmore : AtomsRead others more) :
    SequenceReads (if others.isEmpty then first else .seq (first :: others)) (used ++ more) := by
  cases others with
  | nil =>
      cases hmore
      rw [List.append_nil]
      exact .atom h
  | cons other others =>
      have hfirst := h.folded.mono (Among.mono (List.subset_append_left used more))
      have hothers := hmore.folded.mono (Among.mono (List.subset_append_right used more))
      obtain ⟨part, rfl, hpart⟩ := h.part
      obtain ⟨written, hwritten, houtlines⟩ := hmore.exists_sequence part
      rw [← hwritten] at hfirst hothers ⊢
      refine .atoms written ?_ ⟨Nat.succ_le_succ (Nat.succ_pos _), hfirst, hothers⟩
      rw [houtlines, hpart]
      rfl

/-- One alternative and those behind it. -/
theorem RuleReads.ofAlternatives {first : Rule} {others : List Rule} {used more : List Lexeme}
    (h : SequenceReads first used) (hmore : AlternativesRead others more) :
    RuleReads (if others.isEmpty then first else .alt (first :: others)) (used ++ more) := by
  cases others with
  | nil =>
      cases hmore
      rw [List.append_nil]
      exact .sequence h
  | cons other others =>
      have hfirst := h.folded.mono (Among.mono (List.subset_append_left used more))
      have hothers := hmore.folded.mono (Among.mono (List.subset_append_right used more))
      obtain ⟨sequence, rfl, hsequence⟩ := h.exists_sequence
      obtain ⟨written, hwritten, houtlines⟩ := hmore.exists_choices sequence
      rw [← hwritten] at hfirst hothers ⊢
      refine .alternatives written ?_ ⟨Nat.succ_le_succ (Nat.succ_pos _), hfirst, hothers⟩
      rw [houtlines, hsequence]
      rfl

/-! ## The readers -/

/-- An operator that follows is taken, and nothing else. -/
theorem takes_readPostfix {rule : Rule} {tokens : List RuleToken} {read : Rule}
    {rest : NoMore tokens} (h : readPostfix rule tokens = (read, rest)) :
    Takes tokens rest fun used => (used = [] ∧ read = rule) ∨
      ∃ (operator : Operator) (span : Span), used = [operator.glyph.lexeme span] ∧
        read.views = .ofPart (operator.outline rule.views.choices) ∧
        ∀ allowed, rule.FoldedOver allowed → read.FoldedOver allowed := by
  unfold readPostfix at h
  split at h
  · obtain ⟨rfl, rfl⟩ := Prod.mk.inj h
    exact .token fun span => .nothing (Or.inr ⟨.question, span, rfl, rfl, fun _ h => h⟩)
  · obtain ⟨rfl, rfl⟩ := Prod.mk.inj h
    exact .token fun span => .nothing (Or.inr ⟨.star, span, rfl, rfl, fun _ h => h⟩)
  · obtain ⟨rfl, rfl⟩ := Prod.mk.inj h
    exact .nothing (Or.inl ⟨rfl, rfl⟩)

/-- A closing parenthesis is taken where one is required. -/
theorem takes_readClose {tokens : List RuleToken} {rest : Fewer tokens}
    (h : readClose tokens = .ok rest) :
    Takes tokens rest fun used => ∃ span, used = [closeAt span] := by
  unfold readClose at h
  split at h
  · obtain rfl := Except.ok.inj h
    exact .token fun span => .nothing ⟨span, rfl⟩
  · cases h

/-- The rule of a leaf. -/
def Leaf.rule : Leaf → Rule
  | .nonTerminal _ name => .node name
  | .terminal _ image => .token image

theorem Leaf.views_rule (leaf : Leaf) : leaf.rule.views = .ofPart leaf.outline := by
  cases leaf <;> rfl

theorem Leaf.folded_rule (leaf : Leaf) : leaf.rule.FoldedOver (Among [leaf.lexeme]) := by
  cases leaf with
  | nonTerminal span name => exact ⟨span, List.mem_singleton.2 rfl⟩
  | terminal span image => exact ⟨span, List.mem_singleton.2 rfl⟩

/-- A leaf with the operator that follows it, if there is one. -/
theorem takes_leaf (leaf : Leaf) {tokens : List RuleToken} {read : Rule}
    {rest : NoMore tokens} (h : readPostfix leaf.rule tokens = (read, rest)) :
    Takes tokens rest fun used => AtomReads read (leaf.lexeme :: used) := by
  refine (takes_readPostfix h).mono fun used hused => ?_
  have hfolded := leaf.folded_rule
  rcases hused with ⟨rfl, rfl⟩ | ⟨operator, span, rfl, hread, hkeeps⟩
  · exact AtomReads.ofPart (.leaf leaf) hfolded leaf.views_rule
  · have hmore := (hkeeps _ hfolded).mono
      (Among.mono (List.subset_append_left _ [operator.glyph.lexeme span]))
    refine AtomReads.ofPart (.repeated leaf operator span) hmore ?_
    rw [hread, leaf.views_rule]
    rfl

/-- Parentheses with the operator that follows them, if there is one. -/
theorem AtomReads.ofParens {rule read : Rule} {used more : List Lexeme} (h : RuleReads rule used)
    (opened closed : Span) (hmore : (more = [] ∧ read = rule) ∨
      ∃ (operator : Operator) (span : Span), more = [operator.glyph.lexeme span] ∧
        read.views = .ofPart (operator.outline rule.views.choices) ∧
        ∀ allowed, rule.FoldedOver allowed → read.FoldedOver allowed) :
    AtomReads read (openAt opened :: (used ++ ([closeAt closed] ++ more))) := by
  rcases hmore with ⟨rfl, rfl⟩ | ⟨operator, span, rfl, hread, hkeeps⟩
  · exact h.parens opened closed
  · have hfolded := hkeeps _ h.folded
    obtain ⟨written, rfl, hwritten⟩ := h.exists_choices
    refine AtomReads.ofPart (.postfixed opened written closed operator span) ?_ ?_
    · exact hfolded.mono (Among.mono fun _ hmem =>
        List.mem_cons_of_mem _ (List.mem_append_left _ hmem))
    rw [hread, ← hwritten]
    rfl

theorem bind_eq_ok_iff {ε α β : Type} {x : Except ε α} {f : α → Except ε β} {b : β} :
    (x >>= f) = .ok b ↔ ∃ a, x = .ok a ∧ f a = .ok b := by
  cases x with
  | error e => simp [bind, Except.bind]
  | ok a => simp [bind, Except.bind]

mutual

theorem takes_readRule {tokens : List RuleToken} {rule : Rule} {rest : Fewer tokens}
    (h : readRule tokens = .ok (rule, rest)) : Takes tokens rest (RuleReads rule) := by
  unfold readRule at h
  split at h
  · cases h
  · obtain ⟨⟨first, between, hlt⟩, hfirst, h⟩ := bind_eq_ok_iff.1 h
    obtain ⟨⟨others, last, hle⟩, hothers, h⟩ := bind_eq_ok_iff.1 h
    obtain ⟨rfl, rfl⟩ := Prod.mk.inj (Except.ok.inj h)
    exact (takes_readSequence hfirst).andThen fun used hused =>
      (takes_readAlternatives hothers).mono fun more hmore => .ofAlternatives hused hmore
termination_by (tokens.length, 3)

theorem takes_readAlternatives {tokens : List RuleToken} {rules : List Rule}
    {rest : NoMore tokens} (h : readAlternatives tokens = .ok (rules, rest)) :
    Takes tokens rest (AlternativesRead rules) := by
  unfold readAlternatives at h
  split at h
  · rename_i place behind
    obtain ⟨⟨first, between, hlt⟩, hfirst, h⟩ := bind_eq_ok_iff.1 h
    obtain ⟨⟨others, last, hle⟩, hothers, h⟩ := bind_eq_ok_iff.1 h
    obtain ⟨rfl, rfl⟩ := Prod.mk.inj (Except.ok.inj h)
    exact .token fun bar => (takes_readSequence hfirst).andThen fun used hused =>
      (takes_readAlternatives hothers).mono fun more hmore => .cons bar hused hmore
  · obtain ⟨rfl, rfl⟩ := Prod.mk.inj (Except.ok.inj h)
    exact .nothing .nil
termination_by (tokens.length, 0)
decreasing_by
  all_goals
    apply Prod.Lex.left
    subst_vars
    simp only [List.length_cons]
    omega

theorem takes_readSequence {tokens : List RuleToken} {rule : Rule} {rest : Fewer tokens}
    (h : readSequence tokens = .ok (rule, rest)) : Takes tokens rest (SequenceReads rule) := by
  unfold readSequence at h
  obtain ⟨⟨first, between, hlt⟩, hfirst, h⟩ := bind_eq_ok_iff.1 h
  obtain ⟨⟨others, last, hle⟩, hothers, h⟩ := bind_eq_ok_iff.1 h
  obtain ⟨rfl, rfl⟩ := Prod.mk.inj (Except.ok.inj h)
  exact (takes_readAtom hfirst).andThen fun used hused =>
    (takes_readAtoms hothers).mono fun more hmore => .ofAtoms hused hmore
termination_by (tokens.length, 2)

theorem takes_readAtoms {tokens : List RuleToken} {rules : List Rule} {rest : NoMore tokens}
    (h : readAtoms tokens = .ok (rules, rest)) : Takes tokens rest (AtomsRead rules) := by
  unfold readAtoms at h
  obtain ⟨found, hfound, h⟩ := bind_eq_ok_iff.1 h
  cases found with
  | none =>
      obtain ⟨rfl, rfl⟩ := Prod.mk.inj (Except.ok.inj h)
      exact .nothing .nil
  | some r =>
      obtain ⟨first, between, hlt⟩ := r
      obtain ⟨⟨others, last, hle⟩, hothers, h⟩ := bind_eq_ok_iff.1 h
      obtain ⟨rfl, rfl⟩ := Prod.mk.inj (Except.ok.inj h)
      exact (takes_readAtom? hfound).andThen fun used hused =>
        (takes_readAtoms hothers).mono fun more hmore => .cons hused hmore
termination_by (tokens.length, 1)

theorem takes_readAtom {tokens : List RuleToken} {rule : Rule} {rest : Fewer tokens}
    (h : readAtom tokens = .ok (rule, rest)) : Takes tokens rest (AtomReads rule) := by
  unfold readAtom at h
  obtain ⟨found, hfound, h⟩ := bind_eq_ok_iff.1 h
  cases found with
  | none => cases h
  | some r =>
      obtain rfl := Except.ok.inj h
      exact takes_readAtom? hfound
termination_by (tokens.length, 1)

theorem takes_readAtom? {tokens : List RuleToken} {rule : Rule} {rest : Fewer tokens}
    (h : readAtom? tokens = .ok (some (rule, rest))) :
    Takes tokens rest (AtomReads rule) := by
  unfold readAtom? at h
  split at h
  · cases h
  · -- A label and the atom that it names.
    rename_i label labelPlace colonPlace behind
    obtain ⟨⟨inner, last, hlt⟩, hinner, h⟩ := bind_eq_ok_iff.1 h
    obtain ⟨rfl, rfl⟩ := Prod.mk.inj (Option.some.inj (Except.ok.inj h))
    refine .token fun span => .token fun colon => (takes_readAtom hinner).mono ?_
    intro used hused
    have hinside := hused.folded.mono (Among.mono fun _ hmem =>
      List.mem_cons_of_mem ((Glyph.ident label).lexeme span)
        (List.mem_cons_of_mem (Glyph.colon.lexeme colon) hmem))
    obtain ⟨part, rfl, hpart⟩ := hused.part
    refine AtomReads.ofPart (.labeled span label colon part) ⟨⟨colon, ?_⟩, hinside⟩ ?_
    · exact List.mem_cons_of_mem _ List.mem_cons_self
    rw [Rule.views, ← hpart]
    rfl
  · -- A name that is neither defined here nor a label.
    obtain ⟨rfl, rfl⟩ := Prod.mk.inj (Option.some.inj (Except.ok.inj h))
    exact .token fun span => takes_leaf (.nonTerminal span _) rfl
  · obtain ⟨rfl, rfl⟩ := Prod.mk.inj (Option.some.inj (Except.ok.inj h))
    exact .token fun span => takes_leaf (.terminal span _) rfl
  · -- A rule in parentheses.
    obtain ⟨⟨inner, between, hlt⟩, hinner, h⟩ := bind_eq_ok_iff.1 h
    obtain ⟨⟨behind, hclose⟩, hbehind, h⟩ := bind_eq_ok_iff.1 h
    rcases hread : readPostfix inner behind with ⟨read, last, hle⟩
    simp only [hread] at h
    obtain ⟨rfl, rfl⟩ := Prod.mk.inj (Option.some.inj (Except.ok.inj h))
    refine .token fun opened => (takes_readRule hinner).andThen fun used hused => ?_
    refine (takes_readClose hbehind).andThen fun _ hclosed => ?_
    obtain ⟨closed, rfl⟩ := hclosed
    exact (takes_readPostfix hread).mono fun more hmore => .ofParens hused opened closed hmore
  · cases h
termination_by (tokens.length, 0)
decreasing_by
  all_goals
    apply Prod.Lex.left
    subst_vars
    simp only [List.length_cons]
    omega

end

/-! ## A whole text -/

/-- The definition is what the production is written for. -/
structure WrittenFor (definition : Definition) (production : WrittenProduction) : Prop where
  name : definition.name = production.name
  outlines : definition.rule.views.choices = production.choices.outlines
  folded : definition.rule.FoldedOver (Among production.choices.lexemes)

/-- No name is defined twice. -/
theorem names_of_readDefinitions {defined : List String} {tokens : List RuleToken}
    {definitions : List Definition} (h : readDefinitions defined tokens = .ok definitions) :
    (definitions.map Definition.name).Nodup ∧
      ∀ definition ∈ definitions, definition.name ∉ defined := by
  unfold readDefinitions at h
  split at h
  · obtain rfl := Except.ok.inj h
    exact ⟨List.nodup_nil, List.forall_mem_nil _⟩
  · rename_i name place eqPlace behind
    split at h
    · cases h
    rename_i hfresh
    obtain ⟨⟨rule, rest, hlt⟩, -, h⟩ := bind_eq_ok_iff.1 h
    obtain ⟨others, hothers, h⟩ := bind_eq_ok_iff.1 h
    obtain rfl := Except.ok.inj h
    -- The others are read with this name among the defined ones.
    obtain ⟨hnodup, hdefined⟩ := names_of_readDefinitions hothers
    refine ⟨List.nodup_cons.2 ⟨?_, hnodup⟩, ?_⟩
    · intro hmem
      obtain ⟨other, hother, hname⟩ := List.mem_map.1 hmem
      exact hdefined other hother (by rw [hname]; exact List.mem_cons_self)
    · intro definition hdefinition
      rcases List.mem_cons.1 hdefinition with rfl | hdefinition
      · simpa using hfresh
      · exact fun hmem => hdefined definition hdefinition (List.mem_cons_of_mem _ hmem)
  · cases h
  · cases h
termination_by tokens.length
decreasing_by
  subst_vars
  simp only [List.length_cons]
  omega

/-- The lexemes of a text in the notation are productions, one for each definition. -/
theorem written_of_readDefinitions {defined : List String} {tokens : List RuleToken}
    {definitions : List Definition} (h : readDefinitions defined tokens = .ok definitions)
    {lexemes : List Lexeme} (hlexemes : List.Forall₂ Spells tokens lexemes) :
    ∃ productions, lexemes = writtenLexemes productions ∧
      List.Forall₂ WrittenFor definitions productions := by
  unfold readDefinitions at h
  split at h
  · obtain rfl := Except.ok.inj h
    cases hlexemes
    exact ⟨[], rfl, List.Forall₂.nil⟩
  · rename_i name place eqPlace behind
    split at h
    · cases h
    obtain ⟨⟨rule, rest, hlt⟩, hrule, h⟩ := bind_eq_ok_iff.1 h
    obtain ⟨others, hothers, h⟩ := bind_eq_ok_iff.1 h
    obtain rfl := Except.ok.inj h
    obtain ⟨nameLexeme, _, hname, htail, rfl⟩ := List.forall₂_cons_left_iff.1 hlexemes
    obtain ⟨eqLexeme, _, heq, hbody, rfl⟩ := List.forall₂_cons_left_iff.1 htail
    obtain ⟨used, left, rfl, hleft, hused⟩ := takes_readRule hrule _ hbody
    have hfolded := hused.folded
    obtain ⟨choices, rfl, hchoices⟩ := hused.exists_choices
    obtain ⟨productions, rfl, hproductions⟩ := written_of_readDefinitions hothers hleft
    refine ⟨⟨nameLexeme.span, name, eqLexeme.span, choices⟩ :: productions, ?_,
      List.Forall₂.cons ⟨rfl, hchoices.symm, hfolded⟩ hproductions⟩
    rw [hname, heq]
    rfl
  · cases h
  · cases h
termination_by tokens.length
decreasing_by
  subst_vars
  simp only [List.length_cons]
  omega

end TreeSmith

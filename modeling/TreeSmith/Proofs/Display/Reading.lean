import TreeSmith.Proofs.Display.Glyphs
import TreeSmith.Proofs.Image

/-!
# TreeSmith.Proofs.Display.Reading

**A rendered rule is read back.** The tokens of the image of a rule are read as that rule again, as
an atom, as a sequence and as alternatives (`readBack_of_folded`). The rule has to be folded and
without labels, as the rules of a grammar without labels are.

For each of the readers one lemma says what it does with the tokens it meets; these lemmas alone
unfold the readers. What follows the tokens of a rule matters: an operator would apply to the last
atom, a further atom or a bar would be read as well. `EndsSequence` and `EndsRule` say which tokens
can follow.
-/

namespace TreeSmith

/-! ## What can follow -/

/-- The tokens that end a rule: nothing, a closing parenthesis, or the next definition. -/
inductive EndsRule : List Glyph → Prop where
  | nil : EndsRule []
  | close (glyphs : List Glyph) : EndsRule (.closeParen :: glyphs)
  | definition (name : String) (glyphs : List Glyph) : EndsRule (.ident name :: .eq :: glyphs)

/-- The tokens that end a sequence: those that end a rule, and a bar. -/
inductive EndsSequence : List Glyph → Prop where
  | rule {glyphs : List Glyph} (h : EndsRule glyphs) : EndsSequence glyphs
  | bar (glyphs : List Glyph) : EndsSequence (.pipe :: glyphs)

/-- What comes next neither applies to the atom in front of it nor makes it a name. -/
def Settled (glyphs : List Glyph) : Prop :=
  ∀ glyph ∈ glyphs.head?, glyph ≠ .eq ∧ glyph ≠ .colon ∧ glyph ≠ .question ∧ glyph ≠ .star

/-- The token is one that an atom starts with. -/
inductive StartsAtom : Glyph → Prop where
  | ident (name : String) : StartsAtom (.ident name)
  | literal (image : String) : StartsAtom (.literal image)
  | openParen : StartsAtom .openParen

theorem StartsAtom.settled {glyph : Glyph} (h : StartsAtom glyph) (glyphs : List Glyph) :
    Settled (glyph :: glyphs) := by
  rintro _ ⟨⟩
  cases h <;> exact ⟨nofun, nofun, nofun, nofun⟩

theorem EndsSequence.settled {glyphs : List Glyph} (h : EndsSequence glyphs) :
    Settled glyphs := by
  cases h with
  | bar glyphs =>
      rintro _ ⟨⟩
      exact ⟨nofun, nofun, nofun, nofun⟩
  | rule h =>
      cases h with
      | nil => exact nofun
      | close glyphs =>
          rintro _ ⟨⟩
          exact ⟨nofun, nofun, nofun, nofun⟩
      | definition name glyphs => exact (StartsAtom.ident name).settled _

/-! ## What the readers do -/

section Readers

variable {tokens rest behind : List RuleToken} {glyphs : List Glyph}

theorem exists_token {glyph : Glyph} (h : tokens.map RuleToken.glyph = glyph :: glyphs) :
    ∃ place rest, tokens = ⟨glyph, place⟩ :: rest ∧ rest.map RuleToken.glyph = glyphs := by
  obtain ⟨⟨first, place⟩, rest, rfl, rfl, hrest⟩ := List.map_eq_cons_iff.1 h
  exact ⟨place, rest, rfl, hrest⟩

theorem readPostfix_settled (rule : Rule) (h : Settled (tokens.map RuleToken.glyph)) :
    readPostfix rule tokens = (rule, ⟨tokens, Nat.le_refl _⟩) := by
  unfold readPostfix
  split
  · exact absurd rfl (h .question rfl).2.2.1
  · exact absurd rfl (h .star rfl).2.2.2
  · rfl

/-- The rule that an operator makes. -/
def Operator.rule : Operator → Rule → Rule
  | question => .opt
  | star => .rep

theorem readPostfix_operator (rule : Rule) (operator : Operator) (place : Place)
    (rest : List RuleToken) :
    (readPostfix rule (⟨operator.glyph, place⟩ :: rest)).1 = operator.rule rule ∧
      (readPostfix rule (⟨operator.glyph, place⟩ :: rest)).2.1 = rest := by
  cases operator <;> exact ⟨rfl, rfl⟩

/-- A leaf is an atom, with what the operator behind it makes of it. -/
theorem readAtom?_leaf (leaf : Leaf) (place : Place)
    (hrest : ∀ glyph ∈ (rest.map RuleToken.glyph).head?, glyph ≠ .eq ∧ glyph ≠ .colon) :
    ∃ left, readAtom? (⟨leaf.glyph, place⟩ :: rest) =
      .ok (some ((readPostfix leaf.rule rest).1, left)) ∧
        left.1 = (readPostfix leaf.rule rest).2.1 := by
  cases leaf with
  | terminal span image =>
      unfold readAtom?
      exact ⟨_, rfl, rfl⟩
  | nonTerminal span name =>
      cases rest with
      | nil =>
          unfold readAtom?
          exact ⟨_, rfl, rfl⟩
      | cons next rest =>
          -- With an equals sign behind it the name would end the rule, with a colon it would label.
          obtain ⟨glyph, nextPlace⟩ := next
          cases glyph with
          | eq => exact absurd rfl (hrest .eq rfl).1
          | colon => exact absurd rfl (hrest .colon rfl).2
          | _ =>
              unfold readAtom?
              exact ⟨_, rfl, rfl⟩

/-- Parentheses are an atom, with what the operator behind them makes of it. -/
theorem readAtom?_parens {inner : Rule} {left : Fewer rest} {closePlace : Place}
    (hinner : readRule rest = .ok (inner, left))
    (hclose : left.1 = ⟨.closeParen, closePlace⟩ :: behind) (place : Place) :
    ∃ last, readAtom? (⟨.openParen, place⟩ :: rest) =
      .ok (some ((readPostfix inner behind).1, last)) ∧
        last.1 = (readPostfix inner behind).2.1 := by
  obtain ⟨_, hfewer⟩ := left
  obtain rfl : _ = _ := hclose
  unfold readAtom?
  simp only
  rw [hinner]
  exact ⟨_, rfl, rfl⟩

/-- No atom starts where a sequence ends. -/
theorem readAtom?_ends (h : EndsSequence (tokens.map RuleToken.glyph)) :
    readAtom? tokens = .ok none := by
  generalize hglyphs : tokens.map RuleToken.glyph = glyphs at h
  cases h with
  | bar glyphs =>
      obtain ⟨place, rest, rfl, -⟩ := exists_token hglyphs
      unfold readAtom?
      rfl
  | rule h =>
      cases h with
      | nil =>
          rw [List.map_eq_nil_iff.1 hglyphs]
          unfold readAtom?
          rfl
      | close glyphs =>
          obtain ⟨place, rest, rfl, -⟩ := exists_token hglyphs
          unfold readAtom?
          rfl
      | definition name glyphs =>
          obtain ⟨place, rest, rfl, hrest⟩ := exists_token hglyphs
          obtain ⟨eqPlace, behind, rfl, -⟩ := exists_token hrest
          unfold readAtom?
          rfl

theorem readAtoms_ends (h : EndsSequence (tokens.map RuleToken.glyph)) :
    readAtoms tokens = .ok ([], ⟨tokens, Nat.le_refl _⟩) := by
  unfold readAtoms
  rw [readAtom?_ends h]
  rfl

theorem readAtoms_cons {first : Rule} {others : List Rule} {left : Fewer tokens}
    {last : NoMore left.1} (hfirst : readAtom? tokens = .ok (some (first, left)))
    (hothers : readAtoms left.1 = .ok (others, last)) :
    ∃ behind, readAtoms tokens = .ok (first :: others, behind) ∧ behind.1 = last.1 := by
  unfold readAtoms
  rw [hfirst]
  simp only [bind, Except.bind]
  rw [hothers]
  exact ⟨_, rfl, rfl⟩

theorem readSequence_atoms {first : Rule} {others : List Rule} {left : Fewer tokens}
    {last : NoMore left.1} (hfirst : readAtom? tokens = .ok (some (first, left)))
    (hothers : readAtoms left.1 = .ok (others, last)) :
    ∃ behind, readSequence tokens =
      .ok (if others.isEmpty then first else .seq (first :: others), behind) ∧
        behind.1 = last.1 := by
  unfold readSequence readAtom
  rw [hfirst]
  simp only [bind, Except.bind, pure, Except.pure]
  rw [hothers]
  exact ⟨_, rfl, rfl⟩

theorem readAlternatives_ends (h : EndsRule (tokens.map RuleToken.glyph)) :
    readAlternatives tokens = .ok ([], ⟨tokens, Nat.le_refl _⟩) := by
  unfold readAlternatives
  split
  · rename_i place rest
    rw [List.map_cons] at h
    cases h
  · rfl

theorem readAlternatives_cons {first : Rule} {others : List Rule} {left : Fewer rest}
    {last : NoMore left.1} (place : Place) (hfirst : readSequence rest = .ok (first, left))
    (hothers : readAlternatives left.1 = .ok (others, last)) :
    ∃ behind, readAlternatives (⟨.pipe, place⟩ :: rest) = .ok (first :: others, behind) ∧
      behind.1 = last.1 := by
  unfold readAlternatives
  rw [hfirst]
  simp only [bind, Except.bind]
  rw [hothers]
  exact ⟨_, rfl, rfl⟩

theorem readRule_alternatives {first : Rule} {others : List Rule} {left : Fewer tokens}
    {last : NoMore left.1} (hstart : ∀ glyph ∈ (tokens.map RuleToken.glyph).head?, StartsAtom glyph)
    (hfirst : readSequence tokens = .ok (first, left))
    (hothers : readAlternatives left.1 = .ok (others, last)) :
    ∃ behind, readRule tokens =
      .ok (if others.isEmpty then first else .alt (first :: others), behind) ∧
        behind.1 = last.1 := by
  unfold readRule
  split
  · cases hstart .pipe rfl
  · rw [hfirst]
    simp only [bind, Except.bind]
    rw [hothers]
    exact ⟨_, rfl, rfl⟩

end Readers

/-! ## Glyphs of images -/

/-- A rendered part starts an atom. -/
theorem glyphs_start (part : Part) : ∃ glyph rest, part.glyphs = glyph :: rest ∧
    StartsAtom glyph := by
  have hatom : ∀ part : Part, part.isAtom = true → ∃ glyph, part.glyphs = [glyph] ∧
      StartsAtom glyph := by
    intro part hpart
    cases part with
    | terminal _ image _ => exact ⟨.literal image, rfl, .literal image⟩
    | nonTerminal _ name _ => exact ⟨.ident name, rfl, .ident name⟩
    | composite _ _ _ _ => cases hpart
  cases part with
  | terminal _ image _ => exact ⟨.literal image, [], rfl, .literal image⟩
  | nonTerminal _ name _ => exact ⟨.ident name, [], rfl, .ident name⟩
  | composite _ times choices _ =>
      rw [Part.glyphs]
      by_cases hbare : (times != .once && isSingleAtom choices) = true
      · rw [if_pos hbare]
        obtain ⟨-, hsingle⟩ := Bool.and_eq_true_iff.1 hbare
        unfold isSingleAtom at hsingle
        split at hsingle
        · rename_i single
          obtain ⟨glyph, hglyphs, hstart⟩ := hatom single hsingle
          refine ⟨glyph, times.glyphs, ?_, hstart⟩
          rw [choicesGlyphs, sequenceGlyphs, hglyphs]
          rfl
        · cases hsingle
      · rw [if_neg hbare]
        exact ⟨.openParen, _, rfl, .openParen⟩

theorem sequenceGlyphs_eq (sequence : Sequence) :
    sequenceGlyphs sequence = sequence.flatMap Part.glyphs := by
  induction sequence with
  | nil => rfl
  | cons part rest ih => rw [sequenceGlyphs, ih, List.flatMap_cons]

theorem choicesGlyphs_cons (sequence : Sequence) (rest : Choices) :
    choicesGlyphs (sequence :: rest) =
      sequenceGlyphs sequence ++ rest.flatMap fun next => .pipe :: sequenceGlyphs next := by
  induction rest generalizing sequence with
  | nil =>
      rw [choicesGlyphs]
      exact (List.append_nil _).symm
  | cons next rest ih =>
      rw [choicesGlyphs, ih next]
      · rfl
      · exact nofun

/-- Between parentheses, the glyphs of alternatives are those of a group. -/
def parenthesized (glyphs : List Glyph) : List Glyph :=
  .openParen :: (glyphs ++ [.closeParen])

/-! ## Rules that are read back -/

/-- Tokens that are these glyphs are read as an atom that is the rule. -/
def ReadsAtom (rule : Rule) (glyphs : List Glyph) : Prop :=
  ∀ (behind : List Glyph) (tokens : List RuleToken), Settled behind →
    tokens.map RuleToken.glyph = glyphs ++ behind →
    ∃ left, readAtom? tokens = .ok (some (rule, left)) ∧ left.1.map RuleToken.glyph = behind

/-- Tokens that are these glyphs are read as a sequence that is the rule. -/
def ReadsSequence (rule : Rule) (glyphs : List Glyph) : Prop :=
  ∀ (behind : List Glyph) (tokens : List RuleToken), EndsSequence behind →
    tokens.map RuleToken.glyph = glyphs ++ behind →
    ∃ left, readSequence tokens = .ok (rule, left) ∧ left.1.map RuleToken.glyph = behind

/-- Tokens that are these glyphs are read as alternatives that are the rule. -/
def ReadsRule (rule : Rule) (glyphs : List Glyph) : Prop :=
  ∀ (behind : List Glyph) (tokens : List RuleToken), EndsRule behind →
    tokens.map RuleToken.glyph = glyphs ++ behind →
    ∃ left, readRule tokens = .ok (rule, left) ∧ left.1.map RuleToken.glyph = behind

/-- The three images of a rule are read back as the rule. -/
structure ReadBack (rule : Rule) : Prop where
  atom : ReadsAtom rule rule.partImage.glyphs
  sequence : ReadsSequence rule (sequenceGlyphs rule.sequenceImage)
  choices : ReadsRule rule (choicesGlyphs rule.choicesImage)

theorem readsAtom_leaf (leaf : Leaf) : ReadsAtom leaf.rule [leaf.glyph] := by
  intro behind tokens hbehind htokens
  obtain ⟨place, rest, rfl, rfl⟩ := exists_token htokens
  obtain ⟨left, hread, hleft⟩ := readAtom?_leaf leaf place
    fun glyph hglyph => ⟨(hbehind glyph hglyph).1, (hbehind glyph hglyph).2.1⟩
  rw [readPostfix_settled leaf.rule hbehind] at hread hleft
  exact ⟨left, hread, by rw [hleft]⟩

theorem readsAtom_leaf_operator (leaf : Leaf) (operator : Operator) :
    ReadsAtom (operator.rule leaf.rule) [leaf.glyph, operator.glyph] := by
  intro behind tokens _ htokens
  obtain ⟨place, rest, rfl, hrest⟩ := exists_token htokens
  obtain ⟨operatorPlace, last, rfl, hlast⟩ := exists_token hrest
  have hnext : ∀ glyph ∈ ((⟨operator.glyph, operatorPlace⟩ :: last).map RuleToken.glyph).head?,
      glyph ≠ .eq ∧ glyph ≠ .colon := by
    cases operator <;> rintro _ ⟨⟩ <;> exact ⟨nofun, nofun⟩
  obtain ⟨left, hread, hleft⟩ := readAtom?_leaf leaf place hnext
  obtain ⟨hrule, hbehind⟩ := readPostfix_operator leaf.rule operator operatorPlace last
  rw [hrule] at hread
  rw [hbehind] at hleft
  refine ⟨left, hread, ?_⟩
  rw [hleft]
  exact hlast

/-- A rule in parentheses, with the operator behind them or without. -/
theorem readsAtom_parens {inner : Rule} {glyphs : List Glyph} (h : ReadsRule inner glyphs) :
    ReadsAtom inner (parenthesized glyphs) ∧ ∀ operator : Operator,
      ReadsAtom (operator.rule inner) (parenthesized glyphs ++ [operator.glyph]) := by
  constructor
  · intro behind tokens hbehind htokens
    rw [parenthesized, List.cons_append, List.append_assoc] at htokens
    obtain ⟨place, rest, rfl, hrest⟩ := exists_token htokens
    obtain ⟨left, hinner, hleft⟩ := h _ rest (.close behind) hrest
    obtain ⟨closePlace, last, hclose, rfl⟩ := exists_token hleft
    obtain ⟨final, hread, hfinal⟩ := readAtom?_parens hinner hclose place
    rw [readPostfix_settled inner hbehind] at hread hfinal
    exact ⟨final, hread, by rw [hfinal]⟩
  · intro operator behind tokens _ htokens
    rw [parenthesized, List.cons_append, List.cons_append, List.append_assoc,
      List.append_assoc] at htokens
    obtain ⟨place, rest, rfl, hrest⟩ := exists_token htokens
    obtain ⟨left, hinner, hleft⟩ := h _ rest (.close _) hrest
    obtain ⟨closePlace, last, hclose, hlast⟩ := exists_token hleft
    obtain ⟨operatorPlace, afterOperator, rfl, hbehind⟩ := exists_token hlast
    obtain ⟨final, hread, hfinal⟩ := readAtom?_parens hinner hclose place
    obtain ⟨hrule, htail⟩ := readPostfix_operator inner operator operatorPlace afterOperator
    rw [hrule] at hread
    rw [htail] at hfinal
    refine ⟨final, hread, ?_⟩
    rw [hfinal]
    exact hbehind

theorem settled_flatMap (rules : List Rule) {behind : List Glyph} (h : EndsSequence behind) :
    Settled (rules.flatMap (fun rule => rule.partImage.glyphs) ++ behind) := by
  cases rules with
  | nil => exact h.settled
  | cons rule rules =>
      obtain ⟨glyph, rest, hglyphs, hstart⟩ := glyphs_start rule.partImage
      rw [List.flatMap_cons, hglyphs]
      exact hstart.settled _

/-- Atoms one after the other, up to the end of the sequence. -/
theorem readAtoms_glyphs {rules : List Rule}
    (h : ∀ rule ∈ rules, ReadsAtom rule rule.partImage.glyphs) {behind : List Glyph}
    (hbehind : EndsSequence behind) {tokens : List RuleToken}
    (htokens : tokens.map RuleToken.glyph =
      rules.flatMap (fun rule => rule.partImage.glyphs) ++ behind) :
    ∃ left, readAtoms tokens = .ok (rules, left) ∧ left.1.map RuleToken.glyph = behind := by
  induction rules generalizing tokens with
  | nil =>
      have hends : tokens.map RuleToken.glyph = behind := htokens
      exact ⟨_, readAtoms_ends (by rw [hends]; exact hbehind), hends⟩
  | cons rule rules ih =>
      obtain ⟨hrule, hrules⟩ := List.forall_mem_cons.1 h
      rw [List.flatMap_cons, List.append_assoc] at htokens
      obtain ⟨left, hfirst, hleft⟩ := hrule _ tokens (settled_flatMap rules hbehind) htokens
      obtain ⟨last, hothers, hlast⟩ := ih hrules hleft
      obtain ⟨final, hread, hfinal⟩ := readAtoms_cons hfirst hothers
      exact ⟨final, hread, by rw [hfinal, hlast]⟩

/-- Alternatives that go on behind a sequence end it, and so does what ends the rule. -/
theorem endsSequence_flatMap (rules : List Rule) {behind : List Glyph} (h : EndsRule behind) :
    EndsSequence
      (rules.flatMap (fun rule => .pipe :: sequenceGlyphs rule.sequenceImage) ++ behind) := by
  cases rules with
  | nil => exact .rule h
  | cons rule rules => exact .bar _

/-- Alternatives that follow a first one, each after its bar. -/
theorem readAlternatives_glyphs {rules : List Rule}
    (h : ∀ rule ∈ rules, ReadsSequence rule (sequenceGlyphs rule.sequenceImage))
    {behind : List Glyph} (hbehind : EndsRule behind) {tokens : List RuleToken}
    (htokens : tokens.map RuleToken.glyph =
      rules.flatMap (fun rule => .pipe :: sequenceGlyphs rule.sequenceImage) ++ behind) :
    ∃ left, readAlternatives tokens = .ok (rules, left) ∧
      left.1.map RuleToken.glyph = behind := by
  induction rules generalizing tokens with
  | nil =>
      have hends : tokens.map RuleToken.glyph = behind := htokens
      exact ⟨_, readAlternatives_ends (by rw [hends]; exact hbehind), hends⟩
  | cons rule rules ih =>
      obtain ⟨hrule, hrules⟩ := List.forall_mem_cons.1 h
      rw [List.flatMap_cons, List.append_assoc] at htokens
      obtain ⟨place, rest, rfl, hrest⟩ := exists_token htokens
      obtain ⟨left, hfirst, hleft⟩ :=
        hrule _ rest (endsSequence_flatMap rules hbehind) hrest
      obtain ⟨last, hothers, hlast⟩ := ih hrules hleft
      obtain ⟨final, hread, hfinal⟩ := readAlternatives_cons place hfirst hothers
      exact ⟨final, hread, by rw [hfinal, hlast]⟩

/-- Atoms are read as a sequence; a single one is itself. -/
theorem readsSequence_atoms {first : Rule} {others : List Rule}
    (hfirst : ReadsAtom first first.partImage.glyphs)
    (hothers : ∀ rule ∈ others, ReadsAtom rule rule.partImage.glyphs) :
    ReadsSequence (if others.isEmpty then first else .seq (first :: others))
      (sequenceGlyphs ((first :: others).map Rule.partImage)) := by
  intro behind tokens hbehind htokens
  rw [sequenceGlyphs_eq, List.flatMap_map, List.flatMap_cons, List.append_assoc] at htokens
  obtain ⟨left, hread, hleft⟩ := hfirst _ tokens (settled_flatMap others hbehind) htokens
  obtain ⟨last, hmore, hlast⟩ := readAtoms_glyphs hothers hbehind hleft
  obtain ⟨final, hsequence, hfinal⟩ := readSequence_atoms hread hmore
  exact ⟨final, hsequence, by rw [hfinal, hlast]⟩

/-- Sequences are read as alternatives; a single one is itself. -/
theorem readsRule_sequences {first : Rule} {others : List Rule} {part : Part}
    {parts : Sequence} (hstart : first.sequenceImage = part :: parts)
    (hfirst : ReadsSequence first (sequenceGlyphs first.sequenceImage))
    (hothers : ∀ rule ∈ others, ReadsSequence rule (sequenceGlyphs rule.sequenceImage)) :
    ReadsRule (if others.isEmpty then first else .alt (first :: others))
      (choicesGlyphs ((first :: others).map Rule.sequenceImage)) := by
  intro behind tokens hbehind htokens
  rw [List.map_cons, choicesGlyphs_cons, List.flatMap_map, List.append_assoc] at htokens
  have hatom : ∀ glyph ∈ (tokens.map RuleToken.glyph).head?, StartsAtom glyph := by
    obtain ⟨glyph, rest, hglyphs, hglyph⟩ := glyphs_start part
    rw [htokens, hstart, sequenceGlyphs, hglyphs]
    rintro _ ⟨⟩
    exact hglyph
  obtain ⟨left, hread, hleft⟩ := hfirst _ tokens (endsSequence_flatMap others hbehind) htokens
  obtain ⟨last, hmore, hlast⟩ := readAlternatives_glyphs hothers hbehind hleft
  obtain ⟨final, hrule, hfinal⟩ := readRule_alternatives hatom hread hmore
  exact ⟨final, hrule, by rw [hfinal, hlast]⟩

theorem readsSequence_atom {rule : Rule} (h : ReadsAtom rule rule.partImage.glyphs) :
    ReadsSequence rule (sequenceGlyphs [rule.partImage]) :=
  @readsSequence_atoms rule [] h (List.forall_mem_nil _)

theorem readsRule_sequence {rule : Rule} {part : Part} {parts : Sequence}
    (hstart : rule.sequenceImage = part :: parts)
    (h : ReadsSequence rule (sequenceGlyphs rule.sequenceImage)) :
    ReadsRule rule (choicesGlyphs [rule.sequenceImage]) :=
  @readsRule_sequences rule [] part parts hstart h (List.forall_mem_nil _)

/-- What is one part is read back wherever it may stand. -/
theorem ReadBack.ofPart {rule : Rule} (h : ReadsAtom rule rule.partImage.glyphs)
    (hseq : ∀ rules, rule ≠ .seq rules) (halt : ∀ rules, rule ≠ .alt rules) :
    ReadBack rule := by
  have hsequence := sequenceImage_of_ne_seq rule hseq
  have hreads : ReadsSequence rule (sequenceGlyphs rule.sequenceImage) := by
    rw [hsequence]
    exact readsSequence_atom h
  refine ⟨h, hreads, ?_⟩
  rw [choicesImage_of_ne_alt rule halt]
  exact readsRule_sequence hsequence hreads

theorem isSingleAtom_cons_cons (first second : Sequence) (more : Choices) :
    isSingleAtom (first :: second :: more) = false := by
  unfold isSingleAtom
  split
  · rename_i hsingle
    exact absurd (List.cons.inj hsingle).2 (List.cons_ne_nil _ _)
  · rfl

/-- As an alternative, a folded rule has at least one part. -/
theorem exists_sequenceImage_cons {allowed : Glyph → Prop} {rule : Rule}
    (h : rule.FoldedOver allowed) : ∃ part parts, rule.sequenceImage = part :: parts := by
  by_cases hseq : ∃ rules, rule = .seq rules
  · obtain ⟨rules, rfl⟩ := hseq
    cases rules with
    | nil => exact absurd h.1 (by decide)
    | cons first others => exact ⟨_, _, by rw [Rule.sequenceImage, List.map_cons]⟩
  · exact ⟨rule.partImage, [], sequenceImage_of_ne_seq rule fun rules hrule => hseq ⟨rules, hrule⟩⟩

theorem glyphs_group (choices : Choices) :
    (Part.composite .zero .once choices none).glyphs = parenthesized (choicesGlyphs choices) := by
  rw [Part.glyphs]
  exact List.append_nil _

/-- A folded rule is a leaf, or what an operator applies to is more than a single atom. -/
theorem leaf_or_not_isSingleAtom {allowed : Glyph → Prop} (hcolon : ¬ allowed .colon) :
    ∀ rule : Rule, rule.FoldedOver allowed →
      (∃ leaf : Leaf, rule = leaf.rule) ∨ isSingleAtom rule.choicesImage = false
  | .node name, _ => Or.inl ⟨.nonTerminal .zero name, rfl⟩
  | .token image, _ => Or.inl ⟨.terminal .zero image, rfl⟩
  | .labeled _ _, h => absurd h.1 hcolon
  | .opt rule, _ => by
      rw [choicesImage_of_ne_alt (.opt rule) (by intro _ h; cases h),
        sequenceImage_of_ne_seq (.opt rule) (by intro _ h; cases h), Rule.partImage]
      exact Or.inr rfl
  | .rep rule, _ => by
      rw [choicesImage_of_ne_alt (.rep rule) (by intro _ h; cases h),
        sequenceImage_of_ne_seq (.rep rule) (by intro _ h; cases h), Rule.partImage]
      exact Or.inr rfl
  | .seq (first :: second :: more), _ => by
      rw [choicesImage_of_ne_alt (.seq _) (by intro _ h; cases h), Rule.sequenceImage]
      exact Or.inr rfl
  | .seq [], h => absurd h.1 (by decide)
  | .seq [_], h => absurd h.1 (by simp)
  | .alt (first :: second :: more), _ => by
      rw [Rule.choicesImage]
      exact Or.inr (isSingleAtom_cons_cons _ _ _)
  | .alt [], h => absurd h.1 (by decide)
  | .alt [_], h => absurd h.1 (by simp)

/-- Behind an operator, a rule is read back if it is by itself. -/
theorem readBack_operator {rule : Rule} (operator : Operator) (h : ReadBack rule)
    (hbare : (∃ leaf : Leaf, rule = leaf.rule) ∨ isSingleAtom rule.choicesImage = false) :
    ReadBack (operator.rule rule) := by
  have himage : (operator.rule rule).partImage =
      .composite .zero operator.times rule.choicesImage none := by
    cases operator <;> exact Rule.partImage.eq_def _
  have hatom : ReadsAtom (operator.rule rule) (operator.rule rule).partImage.glyphs := by
    rw [himage]
    -- The operator of a leaf stands right behind it, that of another rule behind parentheses.
    rcases hbare with ⟨leaf, rfl⟩ | hsingle
    · have hchoices : leaf.rule.choicesImage = [[leaf.rule.partImage]] := by
        rw [choicesImage_of_ne_alt leaf.rule (by intro _ h; cases leaf <;> cases h),
          sequenceImage_of_ne_seq leaf.rule (by intro _ h; cases leaf <;> cases h)]
      have hglyphs : (Part.composite .zero operator.times leaf.rule.choicesImage none).glyphs =
          [leaf.glyph, operator.glyph] := by
        rw [hchoices]
        cases leaf <;> cases operator <;> rw [Leaf.rule, Rule.partImage] <;> rfl
      rw [hglyphs]
      exact readsAtom_leaf_operator leaf operator
    · have hglyphs : (Part.composite .zero operator.times rule.choicesImage none).glyphs =
          parenthesized (choicesGlyphs rule.choicesImage) ++ [operator.glyph] := by
        rw [Part.glyphs, hsingle, Bool.and_false]
        cases operator <;> rfl
      rw [hglyphs]
      exact (readsAtom_parens h.choices).2 operator
  refine .ofPart hatom ?_ ?_
  · intro _ h
    cases operator <;> cases h
  · intro _ h
    cases operator <;> cases h

mutual

/-- **A folded rule without labels is read back.** -/
theorem readBack_of_folded {allowed : Glyph → Prop} (hcolon : ¬ allowed .colon) :
    ∀ rule : Rule, rule.FoldedOver allowed → ReadBack rule
  | .node name, _ => by
      refine .ofPart ?_ nofun nofun
      rw [Rule.partImage]
      exact readsAtom_leaf (.nonTerminal .zero name)
  | .token image, _ => by
      refine .ofPart ?_ nofun nofun
      rw [Rule.partImage]
      exact readsAtom_leaf (.terminal .zero image)
  | .labeled _ _, h => absurd h.1 hcolon
  | .opt rule, h => readBack_operator .question (readBack_of_folded hcolon rule h)
      (leaf_or_not_isSingleAtom hcolon rule h)
  | .rep rule, h => readBack_operator .star (readBack_of_folded hcolon rule h)
      (leaf_or_not_isSingleAtom hcolon rule h)
  | .seq (first :: second :: more), h => by
      have hall := readBack_all hcolon (first :: second :: more) h.2
      obtain ⟨hfirst, hothers⟩ := List.forall_mem_cons.1 hall
      have himage : (Rule.seq (first :: second :: more)).sequenceImage =
          (first :: second :: more).map Rule.partImage := by rw [Rule.sequenceImage]
      have hsequence : ReadsSequence (.seq (first :: second :: more))
          (sequenceGlyphs (Rule.seq (first :: second :: more)).sequenceImage) := by
        rw [himage]
        exact readsSequence_atoms hfirst.atom fun rule hrule => (hothers rule hrule).atom
      have hchoices := readsRule_sequence himage hsequence
      -- As a part it stands in parentheses, where a rule is read and not a sequence.
      refine ⟨?_, hsequence, ?_⟩
      · rw [Rule.partImage, glyphs_group, ← himage]
        exact (readsAtom_parens hchoices).1
      · rw [choicesImage_of_ne_alt (.seq _) nofun]
        exact hchoices
  | .seq [], h => absurd h.1 (by decide)
  | .seq [_], h => absurd h.1 (by simp)
  | .alt (first :: second :: more), h => by
      have hall := readBack_all hcolon (first :: second :: more) h.2
      obtain ⟨hfirst, hothers⟩ := List.forall_mem_cons.1 hall
      -- No bar comes first: the first alternative has a part.
      obtain ⟨part, parts, hstart⟩ := exists_sequenceImage_cons h.2.1
      have hchoices : ReadsRule (.alt (first :: second :: more))
          (choicesGlyphs ((first :: second :: more).map Rule.sequenceImage)) :=
        readsRule_sequences hstart hfirst.sequence fun rule hrule => (hothers rule hrule).sequence
      have hatom : ReadsAtom (.alt (first :: second :: more))
          (Rule.alt (first :: second :: more)).partImage.glyphs := by
        rw [Rule.partImage, glyphs_group]
        exact (readsAtom_parens hchoices).1
      refine ⟨hatom, ?_, ?_⟩
      · rw [sequenceImage_of_ne_seq (.alt _) nofun]
        exact readsSequence_atom hatom
      · rw [Rule.choicesImage]
        exact hchoices
  | .alt [], h => absurd h.1 (by decide)
  | .alt [_], h => absurd h.1 (by simp)

theorem readBack_all {allowed : Glyph → Prop} (hcolon : ¬ allowed .colon) :
    ∀ rules : List Rule, AllFoldedOver allowed rules → ∀ rule ∈ rules, ReadBack rule
  | [], _ => List.forall_mem_nil _
  | rule :: rules, h => List.forall_mem_cons.2
      ⟨readBack_of_folded hcolon rule h.1, readBack_all hcolon rules h.2⟩

end

end TreeSmith

import TreeSmith.Proofs.Generation.Units

/-!
# TreeSmith.Proofs.Generation.Locality

**What is written for a production depends on it and its own comments alone.** Two grammars may
differ in all else: other productions, their order, comments elsewhere. If a production is in both,
and the comments inside its span are the same, then its node type and its visits are the same code
in both outputs, and these are made up of nothing but such shares and what the settings give
(`generate_local`). Productions can therefore be put in any other order; their shares move with
them.
-/

namespace TreeSmith

/-! ## Shares -/

/-- Of all comments, only those inside a production decide who owns what in it. -/
theorem annotate_congr (config : Config) {one two : List Comment} {production : Production}
    (h : commentsIn one production.span = commentsIn two production.span) :
    Commentary.annotate ⟨one, config⟩ production =
      Commentary.annotate ⟨two, config⟩ production := by
  have howned : ∀ slots, Commentary.owned ⟨one, config⟩ slots production.span =
      Commentary.owned ⟨two, config⟩ slots production.span := by
    intro slots
    rw [Commentary.owned, Commentary.owned, h]
    rfl
  simp only [Commentary.annotate, howned]

/-- What is written for a node type depends on the owners of its comments alone. -/
theorem Commentary.share_congr {one two : Commentary} {nodeType : NodeType}
    (h : one.annotate nodeType.production = two.annotate nodeType.production) (config : Config) :
    one.share config nodeType = two.share config nodeType := by
  simp only [Commentary.share, Commentary.declaration, Commentary.visitDoc, Commentary.visitBody,
    Commentary.fieldDocs, Commentary.annotateIf, h]

theorem share_congr (config : Config) {one two : List Comment} {production : Production}
    (h : commentsIn one production.span = commentsIn two production.span) :
    share config one production = share config two production := by
  refine Commentary.share_congr ?_ config
  rw [production_lower]
  exact annotate_congr config h

/-! ## The order of productions -/

theorem WellNamed.perm {config : Config} {productions others : List Production}
    (h : WellNamed config productions) (hperm : others.Perm productions) :
    WellNamed config others where
  identifiers production hproduction := h.identifiers production (hperm.mem_iff.1 hproduction)
  unreserved production hproduction := h.unreserved production (hperm.mem_iff.1 hproduction)
  distinct := (hperm.map _).nodup_iff.2 h.distinct

theorem Grammar.WellReferenced.perm {grammar : Grammar} {productions : List Production}
    (h : grammar.WellReferenced) (hperm : productions.Perm grammar.productions) :
    Grammar.WellReferenced { grammar with productions } := by
  intro production hproduction part hpart
  have hresolves := h production (hperm.mem_iff.1 hproduction) part hpart
  cases part with
  | terminal => trivial
  | composite => trivial
  | nonTerminal span name code =>
      obtain ⟨target, htarget, hname⟩ := hresolves
      exact ⟨target, hperm.mem_iff.2 htarget, hname⟩

/-- **What is written for a production depends on it and its own comments alone.** -/
theorem generate_local (config : Config) (one two : Grammar) (first second : Output)
    (hfirst : (generate config one).value.outcome = .ok first)
    (hsecond : (generate config two).value.outcome = .ok second) :
    first = assemble config (one.productions.map (share config one.comments)) ∧
    second = assemble config (two.productions.map (share config two.comments)) ∧
    (∀ production ∈ one.productions, production ∈ two.productions →
      commentsIn one.comments production.span = commentsIn two.comments production.span →
      share config one.comments production = share config two.comments production) ∧
    first.nodeInterface = second.nodeInterface ∧
    first.supportClasses = second.supportClasses ∧
    ∀ productions, productions.Perm one.productions →
      (generate config { one with productions }).value.outcome =
        .ok (assemble config (productions.map (share config one.comments))) := by
  obtain ⟨hnamed, hreferenced, rfl⟩ := outcome_eq_ok_iff.1 hfirst
  obtain ⟨-, -, rfl⟩ := outcome_eq_ok_iff.1 hsecond
  refine ⟨rfl, rfl, ?_, ?_, ?_, ?_⟩
  · intro production _ _ hcomments
    exact share_congr config hcomments
  · rw [nodeInterface_assemble, nodeInterface_assemble]
  · rw [supportClasses_assemble, supportClasses_assemble]
  · intro productions hperm
    exact outcome_eq_ok_iff.2 ⟨hnamed.perm hperm, hreferenced.perm hperm, rfl⟩

/-- The production `A` stands first in one grammar and last in the other, where `B` and the
comments outside `A` are different. -/
theorem generate_local_reordered :
    ∃ (config : Config) (a b b' : Production) (mine theirs others : Comment)
        (first second : Output),
      config = { javadocComments := true, inlineAcceptMethods := true } ∧
      a = ⟨"A", ⟨0, 16⟩, .choices [[.terminal ⟨4, 7⟩ "x" none,
        .composite ⟨8, 16⟩ .optional [[.nonTerminal ⟨9, 10⟩ "B" none]] none]]⟩ ∧
      b = ⟨"B", ⟨20, 25⟩, .choices [[.nonTerminal ⟨24, 25⟩ "A" none]]⟩ ∧
      b' = ⟨"B", ⟨20, 29⟩, .choices [[], [.terminal ⟨26, 29⟩ "y" none]]⟩ ∧
      mine = ⟨⟨11, 15⟩, " of A"⟩ ∧ theirs = ⟨⟨21, 23⟩, " of B"⟩ ∧ others = ⟨⟨23, 24⟩, "else"⟩ ∧
      (generate config ⟨[a, b], [mine, theirs]⟩).value.outcome = .ok first ∧
      (generate config ⟨[b', a], [others, mine]⟩).value.outcome = .ok second ∧
      first = assemble config [share config [mine, theirs] a, share config [mine, theirs] b] ∧
      second = assemble config [share config [others, mine] b', share config [others, mine] a] ∧
      share config [mine, theirs] a = share config [others, mine] a ∧
      first.nodeInterface = second.nodeInterface ∧
      first.supportClasses = second.supportClasses ∧
      (generate config ⟨[b, a], [mine, theirs]⟩).value.outcome =
        .ok (assemble config [share config [mine, theirs] b, share config [mine, theirs] a]) := by
  have hfirst : (generate { javadocComments := true, inlineAcceptMethods := true }
      ⟨[⟨"A", ⟨0, 16⟩, .choices [[.terminal ⟨4, 7⟩ "x" none,
          .composite ⟨8, 16⟩ .optional [[.nonTerminal ⟨9, 10⟩ "B" none]] none]]⟩,
        ⟨"B", ⟨20, 25⟩, .choices [[.nonTerminal ⟨24, 25⟩ "A" none]]⟩],
        [⟨⟨11, 15⟩, " of A"⟩, ⟨⟨21, 23⟩, " of B"⟩]⟩).value.outcome = .ok _ :=
    outcome_of_foundProblem? (by decide)
  have hsecond : (generate { javadocComments := true, inlineAcceptMethods := true }
      ⟨[⟨"B", ⟨20, 29⟩, .choices [[], [.terminal ⟨26, 29⟩ "y" none]]⟩,
        ⟨"A", ⟨0, 16⟩, .choices [[.terminal ⟨4, 7⟩ "x" none,
          .composite ⟨8, 16⟩ .optional [[.nonTerminal ⟨9, 10⟩ "B" none]] none]]⟩],
        [⟨⟨23, 24⟩, "else"⟩, ⟨⟨11, 15⟩, " of A"⟩]⟩).value.outcome = .ok _ :=
    outcome_of_foundProblem? (by decide)
  obtain ⟨hassembled, hassembled', hshares, hinterface, hsupport, hperm⟩ :=
    generate_local _ _ _ _ _ hfirst hsecond
  exact ⟨_, _, _, _, _, _, _, _, _, rfl, rfl, rfl, rfl, rfl, rfl, rfl, hfirst, hsecond,
    hassembled, hassembled', hshares _ (.head _) (.tail _ (.head _)) rfl, hinterface, hsupport,
    hperm [_, _] (.swap ..)⟩

end TreeSmith

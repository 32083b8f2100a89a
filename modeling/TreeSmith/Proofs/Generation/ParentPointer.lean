import TreeSmith.Proofs.Code.ParentPointer
import TreeSmith.Proofs.Generation.Units

/-!
# TreeSmith.Proofs.Generation.ParentPointer

**A pointer to the parent brings what it takes, and changes nothing else.** The same grammar is
generated with and without it. Both passes fail alike, or both succeed, and then every unit of the
one is the unit of the other with members for the parent and with every child told that is stored
(`generate_parentPointer`). Visitors do not know about parents at all.
-/

namespace TreeSmith

/-! ## Units and outputs with parents -/

/-- The first unit is the second with these members for the parent and with these children told,
each directly behind the statement that stores it. What it has more is whole lines of text. -/
structure CompilationUnit.GainsParents (config : Config) (comments : List Comment)
    (slots : List ChildSlot) (parts : List ParentMember) (children : List String)
    (one two : CompilationUnit) : Prop where
  name : one.name = two.name
  code : ∃ code code', one.text = renderCode code ∧ two.text = renderCode code' ∧
    WithParents config comments slots parts children code code' ∧ TellsAll config slots code
  lines : (Text.lines two.text.toList).Sublist (Text.lines one.text.toList)

/-- The first output is the second with parents. -/
structure Output.GainsParents (config : Config) (grammar : Grammar) (one two : Output) : Prop where
  /-- The class of every production has the field and the accessors, and tells the child in every
  field by each constructor. -/
  nodeTypes : ∃ write write' : Production → CompilationUnit,
    one.nodeTypes = grammar.productions.map write ∧
    two.nodeTypes = grammar.productions.map write' ∧
    ∀ production ∈ grammar.productions,
      (write production).GainsParents config grammar.comments
        (NodeType.lower config production).slots [.field, .setter, .getter]
        (NodeType.lower config production).stored (write' production)
  /-- The accessors are declared. -/
  nodeInterface : one.nodeInterface.GainsParents config grammar.comments []
    [.setterDeclaration, .getterDeclaration] [] two.nodeInterface
  /-- The support classes have the field and the accessors, and tell the nodes that they store. -/
  supportClasses : ∃ write write' : SupportClass → CompilationUnit,
    one.supportClasses = SupportClass.all.map write ∧
    two.supportClasses = SupportClass.all.map write' ∧
    ∀ support, (write support).GainsParents config grammar.comments support.slots
      [.field, .setter, .getter] support.stored (write' support)
  visitors : one.visitors = two.visitors

section Output

variable {config : Config} {comments : List Comment}

theorem WithParents.gainsParents (hconfig : config.SingleLine) {slots : List ChildSlot}
    (hslots : ChildSlot.Initialed slots) (hfields : ∀ slot ∈ slots, Text.Alphanumeric slot.field)
    {parts : List ParentMember} {children : List String}
    (hchildren : ∀ child ∈ children, Text.Alphanumeric child) {code code' : Code}
    (h : WithParents config comments slots parts children code code') (name : String) :
    CompilationUnit.GainsParents config comments slots parts children ⟨name, renderCode code⟩
      ⟨name, renderCode code'⟩ := by
  have htells : TellsAll config slots code := h.tellsAll hslots hfields hchildren
    fun part line hline => (untouched_parentMember hconfig hslots part line hline).storesNone
  refine ⟨rfl, ⟨code, code', rfl, rfl, h, htells⟩, ?_⟩
  rw [lines_renderCode, lines_renderCode]
  exact h.sublist_textLines.append (List.Sublist.refl _)

theorem lower_withParents (config : Config) :
    NodeType.lower config.withParents = NodeType.lower config := lower_congr rfl rfl

theorem lower_withoutParents (config : Config) :
    NodeType.lower config.withoutParents = NodeType.lower config := lower_congr rfl rfl

/-! ## What is written for a production -/

theorem gainsParents_nodeType_share (hconfig : config.SingleLine) {grammar : Grammar}
    (hnamed : WellNamed config grammar.productions) (hreferenced : grammar.WellReferenced)
    {production : Production} (hproduction : production ∈ grammar.productions) :
    (share config.withParents comments production).nodeType.GainsParents config comments
      (NodeType.lower config production).slots [.field, .setter, .getter]
      (NodeType.lower config production).stored
      (share config.withoutParents comments production).nodeType := by
  have hname : Text.SingleLine (NodeType.lower config production).name := by
    rw [name_lower]
    exact singleLine_of_isIdentifier (hnamed.identifiers production hproduction)
  rw [share, share, lower_withParents, lower_withoutParents]
  refine WithParents.gainsParents hconfig (initialed_slots config production)
    (alphanumeric_slots config production) (alphanumeric_stored config production) ?_ _
  exact withParents_declarationCode hconfig
    (fun _ hfield => singleLine_type_of_mem_fields hconfig hnamed hreferenced hproduction hfield)
    hname (from_annotateIf ⟨comments, config⟩ _ _)

/-- Visits of nodes do not know about parents. -/
theorem declaration_share_parents (config : Config) (comments : List Comment)
    (production : Production) : (share config.withParents comments production).declaration =
      (share config.withoutParents comments production).declaration := by
  rw [share, share, lower_withParents, lower_withoutParents]
  rfl

theorem method_share_parents (config : Config) (comments : List Comment)
    (production : Production) : (share config.withParents comments production).method =
      (share config.withoutParents comments production).method := by
  have hsame : config.withParents.debugComments = config.withoutParents.debugComments := rfl
  have hvisits : fieldVisits config.withParents = fieldVisits config.withoutParents := by
    funext indent known i fields
    exact fieldVisits_congr hsame indent known i fields
  rw [share, share, lower_withParents, lower_withoutParents, Commentary.share, Commentary.share,
    Commentary.visitBody, Commentary.visitBody, hvisits]
  rfl

/-! ## The output of a pass -/

theorem visitors_assemble_parents (config : Config) (comments : List Comment)
    (productions : List Production) :
    (assemble config.withParents (productions.map (share config.withParents comments))).visitors =
      (assemble config.withoutParents
        (productions.map (share config.withoutParents comments))).visitors := by
  have hinterfaces : interfaceUnit config.withParents
        (productions.map (share config.withParents comments)) =
      interfaceUnit config.withoutParents
        (productions.map (share config.withoutParents comments)) := by
    funext flavor
    rw [interfaceUnit, interfaceUnit, List.flatMap_map, List.flatMap_map]
    simp only [declaration_share_parents]
    rfl
  have hdepthFirst : depthFirstUnit config.withParents
        (productions.map (share config.withParents comments)) =
      depthFirstUnit config.withoutParents
        (productions.map (share config.withoutParents comments)) := by
    rw [depthFirstUnit, depthFirstUnit, List.flatMap_map, List.flatMap_map]
    simp only [method_share_parents]
    rfl
  rw [visitors_assemble, visitors_assemble, hinterfaces, hdepthFirst]

theorem gainsParents_assemble (hconfig : config.SingleLine) {grammar : Grammar}
    (hnamed : WellNamed config grammar.productions) (hreferenced : grammar.WellReferenced) :
    (assemble config.withParents
        (grammar.productions.map (share config.withParents grammar.comments))).GainsParents config
      grammar (assemble config.withoutParents
        (grammar.productions.map (share config.withoutParents grammar.comments))) where
  nodeTypes := ⟨_, _, List.map_map, List.map_map, fun _ hproduction =>
    gainsParents_nodeType_share hconfig hnamed hreferenced hproduction⟩
  nodeInterface := (withParents_nodeInterface hconfig grammar.comments).gainsParents hconfig
    (List.forall_mem_nil _) (List.forall_mem_nil _) (List.forall_mem_nil _) config.nodeInterface
  supportClasses := ⟨_, _, rfl, rfl, fun support =>
    (withParents_supportCode hconfig support).gainsParents hconfig support.initialed_slots
      support.alphanumeric_slots support.alphanumeric_stored (support.name config)⟩
  visitors := visitors_assemble_parents config grammar.comments grammar.productions

/-- **A pointer to the parent brings what it takes, and changes nothing else.** With it and without
it, a pass fails in the same way or succeeds, and then the output with it is the other one with
members for the parent and with every child told that is stored. -/
theorem generate_parentPointer (config : Config) (grammar : Grammar)
    (hconfig : config.SingleLine) :
    (∃ e diagnostics,
      (generate config.withParents grammar).value = ⟨.error e, diagnostics⟩ ∧
      (generate config.withoutParents grammar).value = ⟨.error e, diagnostics⟩) ∨
    ∃ one two, (generate config.withParents grammar).value.outcome = .ok one ∧
      (generate config.withoutParents grammar).value.outcome = .ok two ∧
      one.GainsParents config grammar two := by
  have hwith : foundProblem? config.withParents grammar = foundProblem? config grammar :=
    foundProblem?_congr (lower_withParents config) rfl grammar
  have hwithout : foundProblem? config.withoutParents grammar = foundProblem? config grammar :=
    foundProblem?_congr (lower_withoutParents config) rfl grammar
  cases hfound : foundProblem? config grammar with
  | some problem =>
      obtain ⟨e, span⟩ := problem
      exact Or.inl ⟨_, _, value_generate_of_some (hwith.trans hfound),
        value_generate_of_some (hwithout.trans hfound)⟩
  | none =>
      obtain ⟨hnamed, hreferenced⟩ := firstProblem?_eq_none.1 hfound
      exact Or.inr ⟨_, _, outcome_of_foundProblem? (hwith.trans hfound),
        outcome_of_foundProblem? (hwithout.trans hfound),
        gainsParents_assemble hconfig hnamed hreferenced⟩

/-- Two fields, of which one can be initialized, are told by two constructors. -/
theorem generate_parentPointer_initialized :
    ∃ (config : Config) (grammar : Grammar) (one two : Output),
      config = { javadocComments := true } ∧ config.SingleLine ∧
      grammar = ⟨[⟨"A", ⟨0, 10⟩, .choices [[.terminal ⟨4, 7⟩ "x" none,
          .composite ⟨8, 10⟩ .optional [[.nonTerminal ⟨8, 9⟩ "A" none]] none]]⟩], []⟩ ∧
      grammar.productions.map (fun production => (NodeType.lower config production).stored) =
        [["f0", "f1", "f0", "f1"]] ∧
      (generate config.withParents grammar).value.outcome = .ok one ∧
      (generate config.withoutParents grammar).value.outcome = .ok two ∧
      one.GainsParents config grammar two := by
  rcases generate_parentPointer { javadocComments := true }
    ⟨[⟨"A", ⟨0, 10⟩, .choices [[.terminal ⟨4, 7⟩ "x" none,
      .composite ⟨8, 10⟩ .optional [[.nonTerminal ⟨8, 9⟩ "A" none]] none]]⟩], []⟩ (by decide) with
    ⟨e, diagnostics, hfails, -⟩ | ⟨one, two, hone, htwo, hgains⟩
  · have hsucceeds := congrArg Generation.outcome hfails
    rw [outcome_of_foundProblem? (by decide)] at hsucceeds
    cases hsucceeds
  · exact ⟨_, _, one, two, rfl, by decide, rfl, by decide, hone, htwo, hgains⟩

end Output

end TreeSmith

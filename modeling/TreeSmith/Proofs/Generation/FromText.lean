import Mathlib
import TreeSmith.Proofs.Generation.Decoration
import TreeSmith.Proofs.Image

/-!
# TreeSmith.Proofs.Generation.FromText

**Only the name of a node type can be wrong with a grammar that was read from a text.** The notation
has no text in which a name is defined twice or refers to nothing. Both carry over to the grammar
that is read: its productions are those of the definitions, and its references, at every depth, are
those of the rules (`references_of_unplaced_eq`). A decoration keeps different names apart, so that
neither a collision nor a dangling reference is left for a pass to find (`generate_ofText`).
-/

namespace TreeSmith

/-! ## The names that a body refers to -/

/-- The names that a sequence refers to. -/
def sequenceMentions (sequence : Sequence) : List String :=
  (sequenceReferences sequence).map Reference.name

/-- The names that alternatives refer to. -/
def choicesMentions (choices : Choices) : List String :=
  (choicesReferences choices).map Reference.name

/-- The names that a part refers to. -/
def Part.mentions (part : Part) : List String :=
  part.references.map Reference.name

@[simp] theorem sequenceMentions_nil : sequenceMentions [] = [] := rfl

@[simp] theorem sequenceMentions_cons (part : Part) (parts : Sequence) :
    sequenceMentions (part :: parts) = part.mentions ++ sequenceMentions parts :=
  List.map_append

@[simp] theorem choicesMentions_nil : choicesMentions [] = [] := rfl

@[simp] theorem choicesMentions_cons (sequence : Sequence) (rest : Choices) :
    choicesMentions (sequence :: rest) = sequenceMentions sequence ++ choicesMentions rest :=
  List.map_append

theorem choicesMentions_singleton (sequence : Sequence) :
    choicesMentions [sequence] = sequenceMentions sequence :=
  (choicesMentions_cons sequence []).trans (List.append_nil _)

theorem sequenceMentions_singleton (part : Part) : sequenceMentions [part] = part.mentions :=
  (sequenceMentions_cons part []).trans (List.append_nil _)

mutual

/-- Where a part was written does not change what it refers to. -/
theorem mentions_unplaced : ∀ part : Part, part.unplaced.mentions = part.mentions
  | .terminal .. => rfl
  | .nonTerminal .. => rfl
  | .composite _ _ choices _ => choicesMentions_unplaced choices

theorem sequenceMentions_unplaced :
    ∀ sequence : List Part, sequenceMentions (unplacedSequence sequence) = sequenceMentions sequence
  | [] => rfl
  | part :: parts => by
      rw [unplacedSequence, sequenceMentions_cons, mentions_unplaced part,
        sequenceMentions_unplaced parts, sequenceMentions_cons]

theorem choicesMentions_unplaced : ∀ choices : List (List Part),
    choicesMentions (unplacedChoices choices) = choicesMentions choices
  | [] => rfl
  | sequence :: rest => by
      rw [unplacedChoices, choicesMentions_cons, sequenceMentions_unplaced sequence,
        choicesMentions_unplaced rest, choicesMentions_cons]

end

/-! ## The references of a rule -/

/-- In all three places a rule refers to what is written in it. -/
structure Rule.Mentions (rule : Rule) : Prop where
  part : rule.partImage.mentions = rule.references
  sequence : sequenceMentions rule.sequenceImage = rule.references
  choices : choicesMentions rule.choicesImage = rule.references

/-- What is one part refers to the same in all three places. -/
theorem Rule.Mentions.ofPart {rule : Rule} (hpart : rule.partImage.mentions = rule.references)
    (hseq : ∀ rules, rule ≠ .seq rules) (halt : ∀ rules, rule ≠ .alt rules) : rule.Mentions := by
  have hsequence : sequenceMentions rule.sequenceImage = rule.references := by
    rw [sequenceImage_of_ne_seq rule hseq, sequenceMentions_singleton, hpart]
  refine ⟨hpart, hsequence, ?_⟩
  rw [choicesImage_of_ne_alt rule halt, choicesMentions_singleton, hsequence]

mutual

theorem mentions_image : ∀ rule : Rule, rule.Mentions
  | .node name => .ofPart (by rw [Rule.partImage]; rfl) nofun nofun
  | .token image => .ofPart (by rw [Rule.partImage]; rfl) nofun nofun
  | .labeled label rule =>
      .ofPart (by rw [Rule.partImage, (mentions_image rule).part, Rule.references]) nofun nofun
  | .opt rule =>
      .ofPart (by rw [Rule.partImage]; exact (mentions_image rule).choices) nofun nofun
  | .rep rule =>
      .ofPart (by rw [Rule.partImage]; exact (mentions_image rule).choices) nofun nofun
  | .seq rules => by
      have hsequence : sequenceMentions (Rule.seq rules).sequenceImage = referencesAll rules := by
        rw [Rule.sequenceImage]
        exact (mentionsAll_image rules).1
      have hchoices : choicesMentions (Rule.seq rules).choicesImage = referencesAll rules := by
        rw [choicesImage_of_ne_alt (.seq rules) nofun, choicesMentions_singleton, hsequence]
      refine ⟨?_, hsequence, hchoices⟩
      -- As a part it is a group around this one sequence.
      rw [choicesImage_of_ne_alt (.seq rules) nofun, Rule.sequenceImage] at hchoices
      rw [Rule.partImage]
      exact hchoices
  | .alt rules => by
      have hchoices : choicesMentions (Rule.alt rules).choicesImage = referencesAll rules := by
        rw [Rule.choicesImage]
        exact (mentionsAll_image rules).2
      have hpart : (Rule.alt rules).partImage.mentions = referencesAll rules := by
        rw [Rule.choicesImage] at hchoices
        rw [Rule.partImage]
        exact hchoices
      refine ⟨hpart, ?_, hchoices⟩
      rw [sequenceImage_of_ne_seq (.alt rules) nofun, sequenceMentions_singleton, hpart,
        Rule.references]

theorem mentionsAll_image : ∀ rules : List Rule,
    sequenceMentions (rules.map Rule.partImage) = referencesAll rules ∧
      choicesMentions (rules.map Rule.sequenceImage) = referencesAll rules
  | [] => ⟨rfl, rfl⟩
  | rule :: rules => by
      obtain ⟨hsequence, hchoices⟩ := mentionsAll_image rules
      constructor
      · rw [List.map_cons, sequenceMentions_cons, (mentions_image rule).part, hsequence,
          referencesAll]
      · rw [List.map_cons, choicesMentions_cons, (mentions_image rule).sequence, hchoices,
          referencesAll]

end

/-- A production that is read for a definition refers to the names that its rule refers to. -/
theorem references_of_unplaced_eq {production : Production} {definition : Definition}
    (h : production.unplaced = definition.image) :
    production.references.map Reference.name = definition.rule.references := by
  obtain ⟨name, span, body⟩ := production
  obtain ⟨-, -, hbody⟩ := Production.mk.inj h
  cases body with
  | code => cases hbody
  | choices choices =>
      rw [← (mentions_image definition.rule).choices, ← Body.choices.inj hbody,
        choicesMentions_unplaced choices]
      rfl

/-! ## Grammars that are read -/

/-- Every name that a text in the notation refers to is defined in it. -/
theorem exists_definition_of_readNotation {text : String} {definitions : List Definition}
    (h : readNotation text = .ok definitions) {definition : Definition}
    (hdefinition : definition ∈ definitions) {name : String}
    (hname : name ∈ definition.rule.references) :
    ∃ target ∈ definitions, target.name = name := by
  obtain ⟨tokens, -, h⟩ := bind_eq_ok_iff.1 h
  obtain ⟨found, -, h⟩ := bind_eq_ok_iff.1 h
  cases hundefined : undefinedName? found with
  | some name =>
      rw [hundefined] at h
      cases h
  | none =>
      rw [hundefined] at h
      obtain rfl := Except.ok.inj h
      have hdefined := List.find?_eq_none.1 hundefined name
        (List.mem_flatMap.2 ⟨definition, hdefinition, hname⟩)
      simpa using hdefined

/-- What is written for some definitions is, without its spans, what they say. -/
theorem exists_definition_of_writtenFor {definitions : List Definition}
    {productions : List WrittenProduction} (h : List.Forall₂ WrittenFor definitions productions)
    {production : Production} (hproduction : production ∈ productions.map WrittenProduction.place) :
    ∃ definition ∈ definitions, production.unplaced = definition.image := by
  obtain ⟨written, hwritten, rfl⟩ := List.mem_map.1 hproduction
  obtain ⟨definition, hdefinition, hfor⟩ := exists_mem_of_forall₂ h hwritten
  exact ⟨definition, hdefinition, hfor.unplaced_place⟩

namespace TextWritten

variable {text : String} {definitions : List Definition} {lexemes : Lexemes}
  {productions : List WrittenProduction}

/-- The productions have the names of the definitions. -/
theorem map_name (h : TextWritten text definitions lexemes productions) :
    (productions.map WrittenProduction.place).map Production.name =
      definitions.map Definition.name := by
  have himages := congrArg (List.map Production.name) (unplaced_of_writtenFor h.writtenFor)
  simpa [Function.comp_def, Production.unplaced, Definition.image] using himages

/-- All references lead to productions. -/
theorem wellReferenced (h : TextWritten text definitions lexemes productions) :
    Grammar.WellReferenced ⟨productions.map WrittenProduction.place, lexemes.comments⟩ := by
  intro production hproduction part hpart
  cases part with
  | terminal => trivial
  | composite => trivial
  | nonTerminal span name code =>
      obtain ⟨definition, hdefinition, himage⟩ :=
        exists_definition_of_writtenFor h.writtenFor hproduction
      have hreference : ⟨name, span⟩ ∈ production.references := by
        rw [Grammar.references_eq]
        exact List.mem_filterMap.2 ⟨_, hpart, rfl⟩
      have hname : name ∈ definition.rule.references := by
        rw [← references_of_unplaced_eq himage]
        exact List.mem_map_of_mem hreference
      obtain ⟨target, htarget, rfl⟩ := exists_definition_of_readNotation h.reads hdefinition hname
      -- The definition of that name is one of those that the productions were written for.
      have hmem := List.mem_map_of_mem (f := Definition.name) htarget
      rw [← h.map_name] at hmem
      exact List.mem_map.1 hmem

end TextWritten

/-- Without two productions of one name, and without dangling references, a single name is all that
can be wrong with a grammar. -/
theorem FirstProblem.invalid_or_reserved {config : Config} {grammar : Grammar}
    {e : GenerationError} {span : Span} (h : FirstProblem config grammar e span)
    (hdistinct : (grammar.productions.map fun production =>
      config.typeName production.name).Nodup)
    (hreferenced : grammar.WellReferenced) :
    ∃ production ∈ grammar.productions,
      (Java.isIdentifier (config.typeName production.name) = false ∧
        e = .invalidName (config.typeName production.name)) ∨
      (config.typeName production.name ∈ config.reservedNames ∧
        e = .reservedName (config.typeName production.name)) := by
  cases h with
  | @name before after production e hsplit _ hfault =>
      refine ⟨production, by simp [hsplit], ?_⟩
      cases hfault with
      | invalid hinvalid => exact Or.inl ⟨hinvalid, rfl⟩
      | reserved _ hreserved => exact Or.inr ⟨hreserved, rfl⟩
      | taken _ _ htaken =>
          -- The name would stand twice in a list without repetitions.
          rw [hsplit, List.map_append, List.map_cons] at hdistinct
          have hapart := (List.nodup_append.1 hdistinct).2.2 _ htaken _ List.mem_cons_self
          exact absurd rfl hapart
  | @reference before after production earlier later span name code _ hsplit _ hparts _
      hdangling =>
      have hproduction : production ∈ grammar.productions := by simp [hsplit]
      have hpart : .nonTerminal span name code ∈ production.preorder := by simp [hparts]
      exact absurd (hreferenced production hproduction _ hpart) hdangling

/-- **Only the name of a node type can be wrong with a grammar that was read from a text.** No
two productions collide, whatever the names are decorated with, and no reference dangles. -/
theorem generate_ofText (config : Config) (text : String) (grammar : Grammar)
    (h : Grammar.ofText text = .ok grammar) :
    (grammar.productions.map fun production => config.typeName production.name).Nodup ∧
    grammar.WellReferenced ∧
    ((∃ output, (generate config grammar).value = ⟨.ok output, []⟩) ∨
      ∃ production ∈ grammar.productions,
        (Java.isIdentifier (config.typeName production.name) = false ∧
          (generate config grammar).value.outcome =
            .error (.invalidName (config.typeName production.name))) ∨
        (config.typeName production.name ∈ config.reservedNames ∧
          (generate config grammar).value.outcome =
            .error (.reservedName (config.typeName production.name)))) := by
  obtain ⟨definitions, lexemes, productions, hwritten, rfl⟩ := exists_written_of_ofText h
  have hdistinct := List.Nodup.map (typeName_injective config) hwritten.names_nodup
  rw [← hwritten.map_name, List.map_map] at hdistinct
  refine ⟨hdistinct, hwritten.wellReferenced, ?_⟩
  cases hfound : foundProblem? config ⟨productions.map WrittenProduction.place,
      lexemes.comments⟩ with
  | none => exact Or.inl (exists_output_of_none hfound)
  | some problem =>
      obtain ⟨e, span⟩ := problem
      have houtcome := congrArg Generation.outcome (value_generate_of_some hfound)
      obtain ⟨production, hproduction, hfault⟩ :=
        (firstProblem?_eq_some.1 hfound).invalid_or_reserved hdistinct hwritten.wellReferenced
      refine Or.inr ⟨production, hproduction, ?_⟩
      rcases hfault with ⟨hinvalid, rfl⟩ | ⟨hreserved, rfl⟩
      · exact Or.inl ⟨hinvalid, houtcome⟩
      · exact Or.inr ⟨hreserved, houtcome⟩

/-- References in nested groups, and a decoration that makes a reserved name. -/
theorem generate_ofText_reserved : ∃ (config : Config) (grammar : Grammar),
    config = { namePrefix := "Node" } ∧
    Grammar.ofText "List = 'x' (List | A)*\nA = y:List?" = .ok grammar ∧
    grammar.WellReferenced ∧
    (generate config grammar).value.outcome = .error (.reservedName "NodeList") := by
  have hread : Grammar.ofText "List = 'x' (List | A)*\nA = y:List?" = .ok
      ⟨[⟨"List", ⟨0, 22⟩, .choices [[.terminal ⟨7, 10⟩ "x" none,
          .composite ⟨11, 22⟩ .zeroOrMore [[.nonTerminal ⟨12, 16⟩ "List" none],
            [.nonTerminal ⟨19, 20⟩ "A" none]] none]]⟩,
        ⟨"A", ⟨23, 34⟩, .choices [[.composite ⟨27, 34⟩ .optional
          [[.nonTerminal ⟨29, 33⟩ "List" none]] none]]⟩], []⟩ := by cbv
  obtain ⟨-, hreferenced, hends⟩ := generate_ofText { namePrefix := "Node" } _ _ hread
  refine ⟨_, _, rfl, hread, hreferenced, ?_⟩
  rcases hends with hsucceeds | ⟨production, hproduction, ⟨hinvalid, -⟩ | ⟨hreserved, hfails⟩⟩
  · exact absurd (value_generate_eq_ok.1 hsucceeds) (by decide)
  · revert production
    decide
  · rcases List.mem_cons.1 hproduction with rfl | hproduction
    · exact hfails
    · obtain rfl := List.mem_singleton.1 hproduction
      exact absurd hreserved (by decide)

end TreeSmith

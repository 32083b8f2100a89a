import TreeSmith.Proofs.Comments.Blocks
import TreeSmith.Proofs.Generation.Units

/-!
# TreeSmith.Proofs.Generation.Decoration

**The decoration of names is a renaming.** A pass that decorates the names of node types gives the
very output of a pass without decoration, over a grammar whose productions and references are
named with the decoration from the start (`generate_decorated`).

That references are resolved by their plain names does no harm: decorating is injective, so that
two names are the same if and only if the decorated ones are. Nothing else in a tree is touched by
a renaming, in particular no span, so that comments keep their owners.
-/

namespace TreeSmith

/-! ## Renaming -/

mutual

/-- The part with its references renamed, at every depth. -/
def Part.renamed (f : String → String) : Part → Part
  | .terminal span image code => .terminal span image code
  | .nonTerminal span name code => .nonTerminal span (f name) code
  | .composite span times choices code => .composite span times (renamedChoices f choices) code

/-- The parts of a sequence with their references renamed. -/
def renamedSequence (f : String → String) : List Part → List Part
  | [] => []
  | part :: parts => part.renamed f :: renamedSequence f parts

/-- Alternatives with their references renamed. -/
def renamedChoices (f : String → String) : List (List Part) → List (List Part)
  | [] => []
  | sequence :: rest => renamedSequence f sequence :: renamedChoices f rest

end

/-- The body with its references renamed; one that is code alone has none. -/
def Body.renamed (f : String → String) : Body → Body
  | .choices alternatives => .choices (renamedChoices f alternatives)
  | .code text => .code text

/-- The production with its name and its references renamed. -/
def Production.renamed (f : String → String) (production : Production) : Production where
  name := f production.name
  span := production.span
  body := production.body.renamed f

/-- The grammar with all productions and references renamed. -/
def Grammar.renamed (f : String → String) (grammar : Grammar) : Grammar where
  productions := grammar.productions.map (Production.renamed f)
  comments := grammar.comments

/-- The same settings without a decoration of names. -/
def Config.undecorated (config : Config) : Config :=
  { config with namePrefix := "", nameSuffix := "" }

section Renaming

variable (f : String → String)

@[simp] theorem span_renamed (part : Part) : (part.renamed f).span = part.span := by
  cases part with
  | terminal => rfl
  | nonTerminal => rfl
  | composite => rfl

@[simp] theorem code_renamed (part : Part) : (part.renamed f).code = part.code := by
  cases part with
  | terminal => rfl
  | nonTerminal => rfl
  | composite => rfl

@[simp] theorem isAtom_renamed (part : Part) : (part.renamed f).isAtom = part.isAtom := by
  cases part with
  | terminal => rfl
  | nonTerminal => rfl
  | composite => rfl

theorem renamedSequence_eq (sequence : Sequence) :
    renamedSequence f sequence = sequence.map (Part.renamed f) := by
  induction sequence with
  | nil => rfl
  | cons part parts ih => rw [renamedSequence, ih, List.map_cons]

theorem renamedChoices_eq (choices : Choices) :
    renamedChoices f choices = choices.map (renamedSequence f) := by
  induction choices with
  | nil => rfl
  | cons sequence rest ih => rw [renamedChoices, ih, List.map_cons]

theorem nested_renamed (part : Part) :
    (part.renamed f).nested = part.nested.map (renamedChoices f) := by
  cases part with
  | terminal => rfl
  | nonTerminal => rfl
  | composite => rfl

@[simp] theorem isChoice_renamed (choices : Choices) :
    isChoice (renamedChoices f choices) = isChoice choices := by
  rw [renamedChoices_eq, isChoice, isChoice, List.length_map]

mutual

theorem preorder_renamed : ∀ part : Part,
    (part.renamed f).preorder = part.preorder.map (Part.renamed f)
  | .terminal .. => rfl
  | .nonTerminal .. => rfl
  | .composite span times choices code => by
      rw [Part.renamed, Part.preorder, choicesPreorder_renamed choices, Part.preorder,
        List.map_cons, Part.renamed]

theorem sequencePreorder_renamed : ∀ sequence : List Part,
    sequencePreorder (renamedSequence f sequence) =
      (sequencePreorder sequence).map (Part.renamed f)
  | [] => rfl
  | part :: parts => by
      rw [renamedSequence, sequencePreorder, preorder_renamed part,
        sequencePreorder_renamed parts, sequencePreorder, List.map_append]

/-- The parts of renamed alternatives are the renamed parts. -/
theorem choicesPreorder_renamed : ∀ choices : List (List Part),
    choicesPreorder (renamedChoices f choices) = (choicesPreorder choices).map (Part.renamed f)
  | [] => rfl
  | sequence :: rest => by
      rw [renamedChoices, choicesPreorder, sequencePreorder_renamed sequence,
        choicesPreorder_renamed rest, choicesPreorder, List.map_append]

end

theorem map_span_renamed (parts : List Part) :
    (parts.map (Part.renamed f)).map Part.span = parts.map Part.span := by
  rw [List.map_map]
  exact List.map_congr_left fun part _ => span_renamed f part

@[simp] theorem compositeSpans_renamed (choices : Choices) :
    compositeSpans (renamedChoices f choices) = compositeSpans choices := by
  rw [compositeSpans_eq, compositeSpans_eq, compositeParts, choicesPreorder_renamed,
    List.filter_map, map_span_renamed]
  simp only [Function.comp_def, isAtom_renamed]
  rfl

@[simp] theorem choicesSpan_renamed (choices : Choices) :
    choicesSpan (renamedChoices f choices) = choicesSpan choices := by
  have hsequence : ∀ sequence, sequenceSpan (renamedSequence f sequence) = sequenceSpan sequence :=
    fun sequence => by rw [sequenceSpan, renamedSequence_eq, map_span_renamed, sequenceSpan]
  rw [choicesSpan, renamedChoices_eq, List.map_map, choicesSpan]
  exact congrArg _ (List.map_congr_left fun sequence _ => hsequence sequence)

theorem flatten_renamed (choices : Choices) :
    (renamedChoices f choices).flatten = choices.flatten.map (Part.renamed f) := by
  induction choices with
  | nil => rfl
  | cons sequence rest ih =>
      rw [renamedChoices, List.flatten_cons, ih, renamedSequence_eq, List.flatten_cons,
        List.map_append]

/-- A renaming moves no field and no sub-part. -/
theorem fieldSlots_renamed (choices : Choices) :
    fieldSlots (renamedChoices f choices) = fieldSlots choices := by
  unfold fieldSlots
  rw [isChoice_renamed, choicesSpan_renamed, compositeSpans_renamed, flatten_renamed,
    List.map_map]
  congr 1
  refine List.map_congr_left fun part _ => ?_
  rw [Function.comp_apply, span_renamed, nested_renamed]
  cases part.nested with
  | none => rfl
  | some choices => exact congrArg _ (compositeSpans_renamed f choices)

theorem choices?_renamed (production : Production) :
    (production.renamed f).choices? = production.choices?.map (renamedChoices f) := by
  unfold Production.renamed Production.choices?
  cases production.body with
  | choices => rfl
  | code => rfl

/-- Comments keep their owners. -/
theorem annotate_renamed (commentary : Commentary) (production : Production) :
    commentary.annotate (production.renamed f) = commentary.annotate production := by
  rw [Commentary.annotate, Commentary.annotate, choices?_renamed, Option.map_map]
  cases production.choices? with
  | none => rfl
  | some choices => simp only [Option.map_some, Function.comp_apply, fieldSlots_renamed]; rfl

end Renaming

/-! ## Decorated names -/

section Decorated

variable (config : Config)

theorem typeName_injective : Function.Injective config.typeName := by
  intro a b h
  simpa [Config.typeName, String.append_assoc] using h

/-- Without a decoration, a name stands for itself. -/
@[simp] theorem typeName_undecorated (name : String) : config.undecorated.typeName name = name := by
  simp [Config.typeName, Config.undecorated]

theorem partType_renamed (part : Part) :
    partType config.undecorated (part.renamed config.typeName) = partType config part := by
  cases part with
  | terminal => rfl
  | nonTerminal => exact typeName_undecorated config _
  | composite span times choices code =>
      cases times with
      | once =>
          rw [Part.renamed, partType, isChoice_renamed]
          rfl
      | optional => rfl
      | zeroOrMore => rfl
      | oneOrMore => rfl

theorem partInitial_renamed (part : Part) :
    partInitial config.undecorated (part.renamed config.typeName) = partInitial config part := by
  cases part with
  | terminal => rfl
  | nonTerminal => rfl
  | composite => rfl

theorem addParts_renamed (nodeType : NodeType) (production : Production) (i : Nat)
    (parts : List Part) :
    addParts config.undecorated { nodeType with production } i
        (parts.map (Part.renamed config.typeName)) =
      { addParts config nodeType i parts with production } := by
  -- Fields are added to the node type at hand; whose production it is plays no part in that.
  induction parts generalizing nodeType i with
  | nil => rfl
  | cons part parts ih =>
      rw [List.map_cons, addParts, addParts, ← ih, partType_renamed, partInitial_renamed,
        code_renamed]
      rfl

/-- Node types are the same but for the production that they are of. -/
theorem lower_renamed (production : Production) :
    NodeType.lower config.undecorated (production.renamed config.typeName) =
      { NodeType.lower config production with
        production := production.renamed config.typeName } := by
  obtain ⟨name, span, body⟩ := production
  have hname : NodeType.ofProduction config.undecorated
      (Production.renamed config.typeName ⟨name, span, body⟩) =
      { NodeType.ofProduction config ⟨name, span, body⟩ with
        production := Production.renamed config.typeName ⟨name, span, body⟩ } := by
    rw [NodeType.ofProduction, choices?_renamed, Option.map_map]
    exact congrArg (NodeType.mk _ · _ _) (typeName_undecorated config _)
  cases body with
  | code => exact hname
  | choices choices =>
      rw [NodeType.lower, hname]
      simp only [Production.renamed, Body.renamed, NodeType.lower, isChoice_renamed,
        flatten_renamed, addParts_renamed]
      cases isChoice choices with
      | true => rfl
      | false => rfl

/-- So the same code is written for them. -/
theorem share_renamed (comments : List Comment) (production : Production) :
    share config.undecorated comments (production.renamed config.typeName) =
      share config comments production := by
  have hannotate : Commentary.annotate ⟨comments, config.undecorated⟩
      (production.renamed config.typeName) = Commentary.annotate ⟨comments, config⟩ production :=
    annotate_renamed config.typeName ⟨comments, config.undecorated⟩ production
  -- The two node types differ in their productions, and these show only through the owners of
  -- comments, which are the same.
  have hproduction := production_lower config production
  rw [share, share, lower_renamed]
  generalize NodeType.lower config production = nodeType at hproduction
  have hdebug : config.undecorated.debugComments = config.debugComments := rfl
  have hvisits : fieldVisits config.undecorated = fieldVisits config := by
    funext indent known i fields
    exact fieldVisits_congr hdebug indent known i fields
  simp only [Commentary.share, Commentary.declaration, Commentary.visitDoc, Commentary.visitBody,
    Commentary.fieldDocs, Commentary.annotateIf, hproduction, hannotate, hvisits]
  rfl

theorem assemble_undecorated (shares : List Share) :
    assemble config.undecorated shares = assemble config shares := by
  have hinterface : nodeInterfaceUnit config.undecorated = nodeInterfaceUnit config := rfl
  have hsupport : supportUnits config.undecorated = supportUnits config := rfl
  have hvisitors : ∀ flavor, interfaceUnit config.undecorated shares flavor =
      interfaceUnit config shares flavor := fun _ => rfl
  have hdepthFirst : depthFirstUnit config.undecorated shares = depthFirstUnit config shares := rfl
  rw [assemble, hinterface, hsupport, funext hvisitors, hdepthFirst, assemble]

/-- Names can be claimed if the decorated ones can. -/
theorem wellNamed_renamed (productions : List Production) :
    WellNamed config.undecorated (productions.map (Production.renamed config.typeName)) ↔
      WellNamed config productions := by
  have hname : ∀ production : Production,
      config.undecorated.typeName (production.renamed config.typeName).name =
        config.typeName production.name := fun production => typeName_undecorated config _
  have hnames : ((productions.map (Production.renamed config.typeName)).map
      fun production => config.undecorated.typeName production.name) =
        productions.map fun production => config.typeName production.name := by
    rw [List.map_map]
    exact List.map_congr_left fun production _ => hname production
  constructor
  · rintro ⟨hidentifiers, hunreserved, hdistinct⟩
    rw [hnames] at hdistinct
    simp only [List.forall_mem_map, hname] at hidentifiers hunreserved
    exact ⟨hidentifiers, hunreserved, hdistinct⟩
  · rintro ⟨hidentifiers, hunreserved, hdistinct⟩
    refine ⟨?_, ?_, by rw [hnames]; exact hdistinct⟩
    · simp only [List.forall_mem_map, hname]
      exact hidentifiers
    · simp only [List.forall_mem_map, hname]
      exact hunreserved

/-- A reference leads to a production if the decorated one does. -/
theorem resolves_renamed (grammar : Grammar) (part : Part) :
    (grammar.renamed config.typeName).Resolves (part.renamed config.typeName) ↔
      grammar.Resolves part := by
  cases part with
  | terminal => exact Iff.rfl
  | composite => exact Iff.rfl
  | nonTerminal span name code =>
      simp only [Part.renamed, Grammar.Resolves, Grammar.renamed]
      -- No two names are decorated alike, so a reference cannot find another production.
      constructor
      · rintro ⟨_, hmem, hname⟩
        obtain ⟨production, hproduction, rfl⟩ := List.mem_map.1 hmem
        exact ⟨production, hproduction, typeName_injective config hname⟩
      · rintro ⟨production, hproduction, rfl⟩
        exact ⟨_, List.mem_map_of_mem hproduction, rfl⟩

theorem wellReferenced_renamed (grammar : Grammar) :
    (grammar.renamed config.typeName).WellReferenced ↔ grammar.WellReferenced := by
  have hpreorder : ∀ production : Production,
      (production.renamed config.typeName).preorder =
        production.preorder.map (Part.renamed config.typeName) := by
    intro production
    rw [Production.preorder, choices?_renamed, Production.preorder]
    cases production.choices? with
    | none => rfl
    | some choices => exact choicesPreorder_renamed config.typeName choices
  simp only [Grammar.WellReferenced, Grammar.renamed, List.forall_mem_map, hpreorder]
  exact forall₂_congr fun production _ => forall₂_congr fun part _ =>
    resolves_renamed config grammar part

/-- **The decoration of names is a renaming.** A pass over a grammar with decorated names is a pass
without decoration over the grammar in which each name, of a production or in a reference, has the
prefix in front of it and the suffix behind it. -/
theorem generate_decorated (grammar : Grammar) (output : Output) :
    (generate config grammar).value.outcome = .ok output ↔
      (generate { config with namePrefix := "", nameSuffix := "" }
        (grammar.renamed fun name =>
          config.namePrefix ++ name ++ config.nameSuffix)).value.outcome = .ok output := by
  have hdecorated : (fun name => config.namePrefix ++ name ++ config.nameSuffix) =
      config.typeName := rfl
  have hundecorated : { config with namePrefix := "", nameSuffix := "" } = config.undecorated := rfl
  have hshares : (grammar.productions.map (Production.renamed config.typeName)).map
      (share config.undecorated grammar.comments) =
        grammar.productions.map (share config grammar.comments) := by
    rw [List.map_map]
    exact List.map_congr_left fun production _ => share_renamed config _ production
  rw [hdecorated, hundecorated, outcome_eq_ok_iff, outcome_eq_ok_iff, wellReferenced_renamed]
  simp only [Grammar.renamed, wellNamed_renamed, hshares, assemble_undecorated]

end Decorated

end TreeSmith

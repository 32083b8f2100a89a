import TreeSmith.Proofs.Generation.Memory
import TreeSmith.Proofs.Generation.Outcome

/-!
# TreeSmith.Proofs.Generation.Units

**What a pass writes, production by production.** All descriptors of a pass go through the same
requests one after the other. As no answer depends on what was asked before, what is written for a
production is a function of it and of the comments (`share`), and the output of a pass is made up
of these shares in the order of the productions (`assemble`). All else in it depends on the
settings alone.

Main statement: a pass succeeds with an output if and only if the grammar is well named and well
referenced and the output is the assembled one (`outcome_eq_ok_iff`).
-/

namespace TreeSmith

/-! ## Requests to all descriptors -/

section Requests

variable {commentary : Commentary} {config : Config} {home : Indent} {nodeTypes : List NodeType}
  {α β : Type}

/-- Nothing is known yet about any of the node types. -/
def freshMemories (nodeTypes : List NodeType) : List Memory :=
  nodeTypes.map fun nodeType => ⟨nodeType, .nothing⟩

@[simp] theorem nodeTypes_fresh (nodeTypes : List NodeType) :
    (freshMemories nodeTypes).map Memory.nodeType = nodeTypes := by
  rw [freshMemories, List.map_map]
  exact List.map_id _

theorem descriptors_fresh (commentary : Commentary) (home : Indent) (nodeTypes : List NodeType) :
    (freshMemories nodeTypes).map (·.descriptor commentary home) =
      nodeTypes.map Descriptor.ofNodeType := by
  simp [freshMemories]

theorem countP_walked_fresh (nodeTypes : List NodeType) :
    (freshMemories nodeTypes).countP Memory.walked = 0 := by
  simp [freshMemories, Memory.walked]

/-- What is known once every node type of a list has been learnt about. -/
def learnAll (needs : NodeType → Knowledge) (memories : List Memory) : List Memory :=
  memories.map fun memory => memory.learn (needs memory.nodeType)

theorem learnAll_cons (needs : NodeType → Knowledge) (memory : Memory) (rest : List Memory) :
    learnAll needs (memory :: rest) =
      memory.learn (needs memory.nodeType) :: learnAll needs rest := rfl

@[simp] theorem nodeTypes_learnAll (needs : NodeType → Knowledge) (memories : List Memory) :
    (learnAll needs memories).map Memory.nodeType = memories.map Memory.nodeType := by
  rw [learnAll, List.map_map]
  rfl

@[simp] theorem learnAll_nothing (memories : List Memory) :
    learnAll (fun _ => .nothing) memories = memories := by
  simp [learnAll]

theorem learnAll_learnAll (one two : NodeType → Knowledge) (memories : List Memory) :
    learnAll two (learnAll one memories) =
      learnAll (fun nodeType => (one nodeType).join (two nodeType)) memories := by
  simp [learnAll, Memory.learn_learn]

theorem countP_walked_cons (memory : Memory) (rest : List Memory) :
    (memory :: rest).countP Memory.walked =
      rest.countP Memory.walked + memory.walked.toNat := by
  rw [List.countP_cons]
  cases memory.walked <;> rfl

/-- A request to all descriptors of some node types is answered by `answer`, whatever they
remember. Afterwards each also remembers what the request needs of it, and a walk is counted for
every descriptor for which one was made. -/
def AllAnswer (commentary : Commentary) (home : Indent) (nodeTypes : List NodeType)
    (request : List Descriptor → Pass (α × List Descriptor)) (answer : α)
    (needs : NodeType → Knowledge) : Prop :=
  ∀ (memories : List Memory) (walks : Nat), memories.map Memory.nodeType = nodeTypes →
    ((request (memories.map (·.descriptor commentary home))).run
        (walks + memories.countP Memory.walked)).value =
      ((answer, (learnAll needs memories).map (·.descriptor commentary home)),
        walks + (learnAll needs memories).countP Memory.walked)

/-- Every descriptor answers for itself. -/
theorem allAnswer_askEach {ask : Ask α} {answer : NodeType → α} {needs : NodeType → Knowledge}
    (h : ∀ nodeType,
      Ask.Answers commentary home nodeType ask (answer nodeType) (needs nodeType))
    (nodeTypes : List NodeType) :
    AllAnswer commentary home nodeTypes (askEach ask) (nodeTypes.map answer) needs := by
  rintro memories walks rfl
  -- The first descriptor answers as it would alone. The others do not notice but for the walks
  -- counted so far, so the induction is for all counts.
  induction memories generalizing walks with
  | nil => rfl
  | cons memory rest ih =>
      have hfirst := h memory.nodeType memory (walks + rest.countP Memory.walked) rfl
      have hrest := ih (walks + (memory.learn (needs memory.nodeType)).walked.toNat)
      rw [Nat.add_right_comm] at hrest
      rw [learnAll_cons, List.map_cons, countP_walked_cons, countP_walked_cons,
        ← Nat.add_assoc, ← Nat.add_assoc]
      simp [askEach, hfirst, hrest, Nat.add_right_comm walks]

end Requests

/-! ## The shares of a production -/

/-- What a pass writes for one production. -/
structure Share where
  nodeType : CompilationUnit
  /-- The visit of its nodes in the interface of a flavor, with the documentation. -/
  declaration : Flavor → Code
  /-- The visit of its nodes in the depth-first visitor, with the documentation. -/
  method : Code

/-- What is written for a node type. -/
def Commentary.share (commentary : Commentary) (config : Config) (nodeType : NodeType) : Share :=
  let indent := Indent.ofLevel config.indentAmount 1
  { nodeType := ⟨nodeType.name, renderCode (commentary.declaration config nodeType)⟩
    declaration := fun flavor =>
      commentary.visitDoc config flavor indent false nodeType ++
        flavor.visitDeclaration config indent nodeType.name
    method :=
      commentary.visitDoc config .void indent config.inlineAcceptMethods nodeType ++
        depthFirstMethod config indent nodeType.name
          (commentary.visitBody config (indent.move 1) nodeType) }

/-- What is written for a production in a grammar with these comments. -/
def share (config : Config) (comments : List Comment) (production : Production) : Share :=
  Commentary.share ⟨comments, config⟩ config (NodeType.lower config production)

/-- The visitor interface of a flavor around the visits of some node types. -/
def interfaceAround (config : Config) (flavor : Flavor) (visits : Code) : Code :=
  let outer := Indent.ofLevel config.indentAmount 0
  let indent := Indent.ofLevel config.indentAmount 1
  outer.opening ("public interface " ++ flavor.genericName config) :: emptyLine ::
    (config.supportNames.flatMap fun node =>
      flavor.supportVisitDoc config indent node ++ flavor.visitDeclaration config indent node) ++
    visits ++ [outer.closing]

/-- The depth-first visitor around the visits of some node types. -/
def depthFirstAround (config : Config) (visits : Code) : Code :=
  let outer := Indent.ofLevel config.indentAmount 0
  let indent := Indent.ofLevel config.indentAmount 1
  outer.opening ("public class " ++ depthFirstName ++ " implements " ++
      Flavor.void.name config) :: emptyLine ::
    (config.supportNames.flatMap fun node =>
      Flavor.void.supportVisitDoc config indent node ++
        depthFirstMethod config indent node (supportVisitBody config node)) ++
    visits ++ [outer.closing]

/-- The file of a visitor interface. -/
def interfaceUnit (config : Config) (shares : List Share) (flavor : Flavor) : CompilationUnit :=
  ⟨flavor.name config,
    renderCode (interfaceAround config flavor (shares.flatMap (·.declaration flavor)))⟩

/-- The file of the depth-first visitor. -/
def depthFirstUnit (config : Config) (shares : List Share) : CompilationUnit :=
  ⟨depthFirstName, renderCode (depthFirstAround config (shares.flatMap Share.method))⟩

/-- The output made up of the shares of some productions. -/
def assemble (config : Config) (shares : List Share) : Output where
  nodeTypes := shares.map Share.nodeType
  nodeInterface := nodeInterfaceUnit config
  supportClasses := supportUnits config
  visitors := Flavor.all.map (interfaceUnit config shares) ++ [depthFirstUnit config shares]

@[simp] theorem nodeTypes_assemble (config : Config) (shares : List Share) :
    (assemble config shares).nodeTypes = shares.map Share.nodeType := rfl

@[simp] theorem nodeInterface_assemble (config : Config) (shares : List Share) :
    (assemble config shares).nodeInterface = nodeInterfaceUnit config := rfl

@[simp] theorem supportClasses_assemble (config : Config) (shares : List Share) :
    (assemble config shares).supportClasses = supportUnits config := rfl

@[simp] theorem visitors_assemble (config : Config) (shares : List Share) :
    (assemble config shares).visitors =
      Flavor.all.map (interfaceUnit config shares) ++ [depthFirstUnit config shares] := rfl

section Units

variable (config : Config) (comments : List Comment) (nodeTypes : List NodeType)

theorem answers_nodeTypeUnit (commentary : Commentary) (home : Indent) (nodeType : NodeType) :
    Ask.Answers commentary home nodeType (nodeTypeUnit commentary config)
      (commentary.share config nodeType).nodeType
      (.commentsIf (config.javadocComments && nodeType.fields?.isSome)) := by
  refine ((Ask.answers_declaration commentary config home nodeType).bind ?_).needing
    (Knowledge.join_nothing _)
  refine .ofGet fun descriptor hnode => ?_
  rw [hnode]
  exact (Ask.Answers.report _).map _

/-- The declaration of a visit shows the documentation lines of visitors, if any comments. -/
theorem answers_declaredVisit (commentary : Commentary) {home : Indent} (flavor : Flavor)
    (nodeType : NodeType)
    (hhome : config.javadocComments = true → Indent.ofLevel config.indentAmount 1 = home) :
    Ask.Answers commentary home nodeType
      (do
        let doc ← flavor.visitDoc commentary config (Indent.ofLevel config.indentAmount 1) false
        return doc ++ flavor.visitDeclaration config (Indent.ofLevel config.indentAmount 1)
          (← get).nodeType.name)
      ((commentary.share config nodeType).declaration flavor)
      (.visitDocIf config.javadocComments) := by
  rw [← Bool.and_true config.javadocComments] at hhome
  refine ((Ask.answers_visitDoc commentary config home _ nodeType flavor false rfl hhome).bind
    (.ofGet fun descriptor hnode => by rw [hnode]; exact .pure _)).needing ?_
  rw [Bool.not_false, Bool.and_true, Knowledge.join_nothing]

theorem allAnswer_interfaceCode (commentary : Commentary) {home : Indent} (flavor : Flavor)
    (hhome : config.javadocComments = true → Indent.ofLevel config.indentAmount 1 = home) :
    AllAnswer commentary home nodeTypes
      (flavor.interfaceCode commentary config)
      (interfaceAround config flavor
        ((nodeTypes.map (commentary.share config)).flatMap (·.declaration flavor)))
      (fun _ => .visitDocIf config.javadocComments) := by
  intro memories walks hnodes
  have hvalue :=
    allAnswer_askEach (answers_declaredVisit config commentary flavor · hhome) nodeTypes memories
      walks hnodes
  rw [Flavor.interfaceCode, StateT.run_bind, Logged.value_bind, hvalue, List.flatMap_map,
    List.flatMap_def]
  rfl

theorem allAnswer_interfaceUnits (commentary : Commentary) (flavors : List Flavor) :
    ∃ needs, AllAnswer commentary (Indent.ofLevel config.indentAmount 1) nodeTypes
      (interfaceUnits commentary config flavors)
      (flavors.map (interfaceUnit config (nodeTypes.map (commentary.share config)))) needs := by
  induction flavors with
  | nil => exact ⟨fun _ => .nothing, fun memories walks _ => by rw [learnAll_nothing]; rfl⟩
  | cons flavor flavors ih =>
      obtain ⟨needs, hothers⟩ := ih
      let doc : NodeType → Knowledge := fun _ => .visitDocIf config.javadocComments
      refine ⟨fun nodeType => (doc nodeType).join (needs nodeType), fun memories walks hnodes => ?_⟩
      have hfirst :=
        allAnswer_interfaceCode config nodeTypes commentary flavor (fun _ => rfl) memories walks
          hnodes
      have hrest :=
        hothers (learnAll doc memories) walks ((nodeTypes_learnAll doc memories).trans hnodes)
      rw [learnAll_learnAll] at hrest
      rw [interfaceUnits, StateT.run_bind, Logged.value_bind, hfirst]
      simp [Pass.report, hrest, doc]
      rfl

/-- The method of a visit shows the documentation lines of visitors, or the comments in its
body. -/
theorem answers_definedVisit (commentary : Commentary) {home : Indent} (nodeType : NodeType)
    (hhome : (config.javadocComments && !config.inlineAcceptMethods) = true →
      Indent.ofLevel config.indentAmount 1 = home) :
    Ask.Answers commentary home nodeType
      (do
        let doc ← Flavor.void.visitDoc commentary config (Indent.ofLevel config.indentAmount 1)
          config.inlineAcceptMethods
        let body ← Ask.visitBody commentary config
          ((Indent.ofLevel config.indentAmount 1).move 1)
        return doc ++ depthFirstMethod config (Indent.ofLevel config.indentAmount 1)
          (← get).nodeType.name body)
      (commentary.share config nodeType).method
      ((Knowledge.visitDocIf (config.javadocComments && !config.inlineAcceptMethods)).join
        (.commentsIf config.inlineAcceptMethods)) := by
  refine (Ask.answers_visitDoc commentary config home _ nodeType .void _ rfl hhome).bind
    (((Ask.answers_visitBody commentary config home _ nodeType).bind
      (.ofGet fun descriptor hnode => by rw [hnode]; exact .pure _)).needing
        (Knowledge.join_nothing _))

theorem allAnswer_depthFirstCode (commentary : Commentary) {home : Indent}
    (hhome : (config.javadocComments && !config.inlineAcceptMethods) = true →
      Indent.ofLevel config.indentAmount 1 = home) :
    AllAnswer commentary home nodeTypes
      (depthFirstCode commentary config)
      (depthFirstAround config
        ((nodeTypes.map (commentary.share config)).flatMap Share.method))
      (fun _ => (Knowledge.visitDocIf (config.javadocComments && !config.inlineAcceptMethods)).join
        (.commentsIf config.inlineAcceptMethods)) := by
  intro memories walks hnodes
  have hvalue :=
    allAnswer_askEach (answers_definedVisit config commentary · hhome) nodeTypes memories walks
      hnodes
  rw [depthFirstCode, StateT.run_bind, Logged.value_bind, hvalue, List.flatMap_map,
    List.flatMap_def]
  rfl

/-- The files of a pass are made up of the shares of the node types. -/
theorem value_generateUnits (walks : Nat) :
    ((generateUnits config comments nodeTypes).run walks).value.1 =
      assemble config (nodeTypes.map (Commentary.share ⟨comments, config⟩ config)) := by
  obtain ⟨needs, hinterfaces⟩ :=
    allAnswer_interfaceUnits config nodeTypes ⟨comments, config⟩ Flavor.all
  have hunits :=
    allAnswer_askEach
      (answers_nodeTypeUnit config ⟨comments, config⟩ (Indent.ofLevel config.indentAmount 1))
      nodeTypes _ walks (nodeTypes_fresh nodeTypes)
  rw [descriptors_fresh, countP_walked_fresh, Nat.add_zero] at hunits
  -- Each stage starts from the descriptors that the one before left.
  rw [generateUnits, StateT.run_bind, Logged.value_bind, hunits]
  rw [StateT.run_bind, Logged.value_bind,
    hinterfaces _ walks ((nodeTypes_learnAll _ _).trans (nodeTypes_fresh nodeTypes))]
  rw [StateT.run_bind, Logged.value_bind,
    allAnswer_depthFirstCode config nodeTypes ⟨comments, config⟩ (fun _ => rfl) _ walks (by simp)]
  simp [assemble, depthFirstUnit]

end Units

/-! ## The output of a pass -/

/-- A pass succeeds if and only if all names and references of the grammar are fine, and then its
output is made up of the shares of the productions. -/
theorem outcome_eq_ok_iff {config : Config} {grammar : Grammar} {output : Output} :
    (generate config grammar).value.outcome = .ok output ↔
      WellNamed config grammar.productions ∧ grammar.WellReferenced ∧
        output = assemble config (grammar.productions.map (share config grammar.comments)) := by
  rw [← and_assoc, ← firstProblem?_eq_none, generate, Logged.value_bind,
    value_mapM_lowerLogged]
  cases firstProblem? config grammar (grammar.productions.map (NodeType.lower config)) with
  | some problem => simp
  | none =>
      have hunits := value_generateUnits config grammar.comments
        (grammar.productions.map (NodeType.lower config)) 0
      rw [List.map_map] at hunits
      simp only [Logged.value_bind, hunits]
      exact ⟨fun h => ⟨trivial, (Except.ok.inj h).symm⟩, fun h => congrArg _ h.2.symm⟩

/-- A pass that finds no problem gives the assembled output. -/
theorem outcome_of_foundProblem? {config : Config} {grammar : Grammar}
    (h : foundProblem? config grammar = none) :
    (generate config grammar).value.outcome =
      .ok (assemble config (grammar.productions.map (share config grammar.comments))) := by
  obtain ⟨hnamed, hreferenced⟩ := firstProblem?_eq_none.1 h
  exact outcome_eq_ok_iff.2 ⟨hnamed, hreferenced, rfl⟩

end TreeSmith

import TreeSmith.Proofs.Generation.Units

/-!
# TreeSmith.Proofs.Generation.Operations

**Descriptors answer as if they had no memory**, whatever is asked of them and in whatever order.
Operations on the descriptors of a list may add fields to them, ask them for comments, or write
code for one of them or for several. Run one after the other with one commentary, they give the
very answers that are found out and rendered anew each time from the node types alone
(`runOperations_fresh`). That theorem also tells what is remembered on the way: how many walks were
made, and which descriptors hold lines for visitors.

A run on descriptors is a run on what they have in mind (`Memory`), position by position: the step
lemma is `Operation.value_run`, and `value_runOperations` takes it to any number of operations.
What a position then has in mind depends on the operations that covered it (`Memory.through`).
-/

namespace TreeSmith

/-! ## Operations -/

/-- What can be asked of descriptors. -/
inductive Request where
  | addField (type name : String) (initial code : Option String)
  | comments
  | fieldDocs (amount level : Nat)
  | fieldComment (config : Config) (amount level i : Nat) (extra : Option String)
  | subComment (config : Config) (amount level k : Nat) (extra : Option String)
  | declaration (config : Config)
  | interface (config : Config) (flavor : Flavor)
  | depthFirst (config : Config)

/-- The answer to a request. -/
inductive Answer where
  /-- The comments of each descriptor. -/
  | comments (found : List (Option Annotations))
  /-- The code that was written: one piece for each descriptor, or one for all of them. -/
  | codes (codes : List Code)
  deriving DecidableEq

/-- Asks the same of each descriptor. -/
def askAll {α : Type} (ask : Ask α) (answer : List α → Answer) (descriptors : List Descriptor) :
    Pass (Answer × List Descriptor) := do
  let (found, descriptors) ← askEach ask descriptors
  return (answer found, descriptors)

namespace Request

/-- Makes a request to descriptors. Visitors are written for all of them at once, all else is
asked of each. -/
def run (commentary : Commentary) :
    Request → List Descriptor → Pass (Answer × List Descriptor)
  | addField type name initial code, descriptors =>
    return (.codes [], descriptors.map fun descriptor =>
      { descriptor with nodeType := descriptor.nodeType.addField type name initial code })
  | comments, descriptors => askAll (Ask.annotations commentary) .comments descriptors
  | fieldDocs amount level, descriptors =>
    askAll (Ask.fieldDocs commentary (.ofLevel amount level)) .codes descriptors
  | fieldComment config amount level i extra, descriptors =>
    askAll (Ask.fieldComment commentary config (.ofLevel amount level) i extra) .codes descriptors
  | subComment config amount level k extra, descriptors =>
    askAll (Ask.subComment commentary config (.ofLevel amount level) k extra) .codes descriptors
  | declaration config, descriptors =>
    askAll (Ask.declaration commentary config) .codes descriptors
  | interface config flavor, descriptors => do
    let (code, descriptors) ← flavor.interfaceCode commentary config descriptors
    return (.codes [code], descriptors)
  | depthFirst config, descriptors => do
    let (code, descriptors) ← depthFirstCode commentary config descriptors
    return (.codes [code], descriptors)

/-- What becomes of a node type. -/
def change : Request → NodeType → NodeType
  | addField type name initial code, nodeType => nodeType.addField type name initial code
  | _, nodeType => nodeType

/-- The answer for some node types, with the owners of comments found out and all lines rendered
anew. -/
def fresh (commentary : Commentary) : Request → List NodeType → Answer
  | addField .., _ => .codes []
  | comments, nodeTypes =>
    .comments <| nodeTypes.map fun nodeType => commentary.annotate nodeType.production
  | fieldDocs amount level, nodeTypes =>
    .codes <| nodeTypes.map fun nodeType =>
      commentary.fieldDocs (.ofLevel amount level) nodeType.production
  | fieldComment config amount level i extra, nodeTypes =>
    .codes <| nodeTypes.map fun nodeType =>
      commentary.fieldComment config (.ofLevel amount level) i extra nodeType.production
  | subComment config amount level k extra, nodeTypes =>
    .codes <| nodeTypes.map fun nodeType =>
      commentary.subComment config (.ofLevel amount level) k extra nodeType.production
  | declaration config, nodeTypes => .codes <| nodeTypes.map (commentary.declaration config)
  | interface config flavor, nodeTypes =>
    .codes [interfaceAround config flavor
      ((nodeTypes.map (commentary.share config)).flatMap (·.declaration flavor))]
  | depthFirst config, nodeTypes =>
    .codes [depthFirstAround config
      ((nodeTypes.map (commentary.share config)).flatMap Share.method)]

/-- Does the request need the comments of a production that has choices? -/
def needsComments : Request → Bool
  | addField .. => false
  | comments | fieldDocs .. | fieldComment .. | subComment .. => true
  | declaration config => config.javadocComments
  | interface config _ => config.javadocComments
  | depthFirst config => config.javadocComments || config.inlineAcceptMethods

/-- If the request asks for documentation lines at level one: how much a level is indented. -/
def levelOne? : Request → Option Nat
  | fieldDocs amount level => if level = 1 then some amount else none
  | interface config _ => if config.javadocComments then some config.indentAmount else none
  | depthFirst config =>
    if config.javadocComments && !config.inlineAcceptMethods then some config.indentAmount else none
  | _ => none

/-- What the request needs to know of a node type. -/
def needs : Request → NodeType → Knowledge
  | addField .., _ => .nothing
  | comments, _ | fieldComment .., _ | subComment .., _ => .comments
  | fieldDocs _ level, _ => if level = 1 then .visitDoc else .comments
  | declaration config, nodeType =>
    .commentsIf (config.javadocComments && nodeType.fields?.isSome)
  | interface config _, _ => .visitDocIf config.javadocComments
  | depthFirst config, _ =>
    (Knowledge.visitDocIf (config.javadocComments && !config.inlineAcceptMethods)).join
      (.commentsIf config.inlineAcceptMethods)

end Request

/-- A request to descriptors that stand next to each other. -/
structure Operation where
  /-- The position of the first one. -/
  first : Nat
  /-- How many they are. -/
  count : Nat
  request : Request

namespace Operation

variable {α β : Type}

/-- Is this position one of those? -/
def covers (operation : Operation) (p : Nat) : Bool :=
  decide (operation.first ≤ p ∧ p < operation.first + operation.count)

/-- Changes what is at those positions. -/
def update (operation : Operation) (f : α → α) (items : List α) : List α :=
  items.mapIdx fun p item => if operation.covers p then f item else item

/-- What is at those positions. -/
def slice (operation : Operation) (items : List α) : List α :=
  (items.drop operation.first).take operation.count

theorem eq_split (operation : Operation) (items : List α) :
    items = items.take operation.first ++ operation.slice items ++
      items.drop (operation.first + operation.count) := by
  rw [slice, ← List.drop_drop, List.append_assoc, List.take_append_drop, List.take_append_drop]

theorem slice_map (operation : Operation) (f : α → β) (items : List α) :
    operation.slice (items.map f) = (operation.slice items).map f := by
  rw [slice, slice, List.map_take, List.map_drop]

/-- A change happens where the operation is. -/
theorem update_eq (operation : Operation) (f : α → α) (items : List α) :
    operation.update f items = items.take operation.first ++ (operation.slice items).map f ++
      items.drop (operation.first + operation.count) := by
  -- Position by position: it is in one of three parts, or behind the end.
  refine List.ext_getElem? fun p => ?_
  rw [update, slice, List.getElem?_mapIdx]
  simp only [List.getElem?_append, List.length_append, List.length_take, List.length_map,
    List.length_drop, List.getElem?_take, List.getElem?_map, List.getElem?_drop, covers]
  grind

theorem map_update (operation : Operation) {f : α → α} (g : α → β) (f' : β → β)
    (h : ∀ item, g (f item) = f' (g item)) (items : List α) :
    (operation.update f items).map g = operation.update f' (items.map g) := by
  simp [update_eq, slice_map, h]

/-- A change leaves all else alone, and what holds of it. -/
theorem exists_countP_update (operation : Operation) (holds : α → Bool) (items : List α) :
    ∃ others, items.countP holds = others + (operation.slice items).countP holds ∧
      ∀ f, (operation.update f items).countP holds =
        others + ((operation.slice items).map f).countP holds := by
  refine ⟨(items.take operation.first).countP holds +
    (items.drop (operation.first + operation.count)).countP holds, ?_, fun f => ?_⟩
  · rw [Nat.add_right_comm, ← List.countP_append, ← List.countP_append, ← operation.eq_split]
  · rw [Nat.add_right_comm, ← List.countP_append, ← List.countP_append, ← update_eq]

/-- Runs an operation on a list of descriptors. -/
def run (commentary : Commentary) (operation : Operation) (descriptors : List Descriptor) :
    Pass (Answer × List Descriptor) := do
  let (answer, slice) ← operation.request.run commentary (operation.slice descriptors)
  return (answer, descriptors.take operation.first ++ slice ++
    descriptors.drop (operation.first + operation.count))

end Operation

/-- Runs operations one after the other. -/
def runOperations (commentary : Commentary) :
    List Operation → List Descriptor → Pass (List Answer × List Descriptor)
  | [], descriptors => return ([], descriptors)
  | operation :: operations, descriptors => do
    let (answer, descriptors) ← operation.run commentary descriptors
    let (answers, descriptors) ← runOperations commentary operations descriptors
    return (answer :: answers, descriptors)

/-- The answers to operations one after the other, each found out anew. -/
def freshAnswers (commentary : Commentary) : List Operation → List NodeType → List Answer
  | [], _ => []
  | operation :: operations, nodeTypes =>
    operation.request.fresh commentary (operation.slice nodeTypes) ::
      freshAnswers commentary operations (operation.update operation.request.change nodeTypes)

/-! ## One step -/

/-- What is in mind after a request. -/
def Memory.after (request : Request) (memory : Memory) : Memory where
  nodeType := request.change memory.nodeType
  known := memory.known.join (request.needs memory.nodeType)

@[simp] theorem Memory.nodeType_after (request : Request) (memory : Memory) :
    (memory.after request).nodeType = request.change memory.nodeType := rfl

@[simp] theorem Memory.known_after (request : Request) (memory : Memory) :
    (memory.after request).known = memory.known.join (request.needs memory.nodeType) := rfl

section Step

variable {amount : Nat}

theorem value_askAll {α : Type} {commentary : Commentary} {home : Indent} {ask : Ask α}
    {answer : NodeType → α} {needs : NodeType → Knowledge}
    (h : ∀ nodeType,
      Ask.Answers commentary home nodeType ask (answer nodeType) (needs nodeType))
    (wrap : List α → Answer) (memories : List Memory) (walks : Nat) :
    ((askAll ask wrap (memories.map (·.descriptor commentary home))).run
        (walks + memories.countP Memory.walked)).value =
      ((wrap ((memories.map Memory.nodeType).map answer),
          (learnAll needs memories).map (·.descriptor commentary home)),
        walks + (learnAll needs memories).countP Memory.walked) := by
  rw [askAll, StateT.run_bind, Logged.value_bind, allAnswer_askEach h _ memories walks rfl]
  rfl

/-- A field that is added changes nothing that is in mind, as this is about the production. -/
theorem descriptor_addField (commentary : Commentary) (home : Indent) (memory : Memory)
    (type name : String) (initial code : Option String) :
    (memory.after (.addField type name initial code)).descriptor commentary home =
      { memory.descriptor commentary home with
        nodeType :=
          (memory.descriptor commentary home).nodeType.addField type name initial code } := by
  obtain ⟨nodeType, known⟩ := memory
  cases known <;> rfl

theorem walked_addField (memory : Memory) (type name : String) (initial code : Option String) :
    (memory.after (.addField type name initial code)).walked = memory.walked := by
  obtain ⟨nodeType, known⟩ := memory
  cases known <;> rfl

/-- A request is answered as if nothing were in mind. -/
theorem Request.value_run (commentary : Commentary) (request : Request)
    (hamount : ∀ asked, request.levelOne? = some asked → asked = amount)
    (memories : List Memory) (walks : Nat) :
    ((request.run commentary
        (memories.map (·.descriptor commentary (.ofLevel amount 1)))).run
          (walks + memories.countP Memory.walked)).value =
      ((request.fresh commentary (memories.map Memory.nodeType),
          (memories.map (·.after request)).map (·.descriptor commentary (.ofLevel amount 1))),
        walks + (memories.map (·.after request)).countP Memory.walked) := by
  cases request with
  | addField type name initial code =>
      simp [run, fresh, Function.comp_def, descriptor_addField, walked_addField]
  | comments =>
      exact value_askAll (Ask.answers_annotations commentary (.ofLevel amount 1)) .comments
        memories walks
  | fieldDocs asked level =>
      refine value_askAll (fun nodeType => Ask.answers_fieldDocs commentary nodeType ?_) .codes
        memories walks
      intro hlevel
      rw [hamount asked (if_pos hlevel), show level = 1 from hlevel]
  | fieldComment config asked level i extra =>
      exact value_askAll
        (Ask.answers_fieldComment commentary config _ (.ofLevel asked level) · i extra) .codes
        memories walks
  | subComment config asked level k extra =>
      exact value_askAll
        (Ask.answers_subComment commentary config _ (.ofLevel asked level) · k extra) .codes
        memories walks
  | declaration config =>
      exact value_askAll (Ask.answers_declaration commentary config _) .codes memories walks
  | interface config flavor =>
      have hvalue := allAnswer_interfaceCode config (memories.map Memory.nodeType) commentary flavor
        (fun hdoc => by rw [hamount config.indentAmount (if_pos hdoc)]) memories walks rfl
      rw [run, StateT.run_bind, Logged.value_bind, hvalue]
      rfl
  | depthFirst config =>
      have hvalue := allAnswer_depthFirstCode config (memories.map Memory.nodeType) commentary
        (fun hdoc => by rw [hamount config.indentAmount (if_pos hdoc)]) memories walks rfl
      rw [run, StateT.run_bind, Logged.value_bind, hvalue]
      rfl

/-- An operation is answered as if nothing were in mind. -/
theorem Operation.value_run (commentary : Commentary) (operation : Operation)
    (hamount : ∀ asked, operation.request.levelOne? = some asked → asked = amount)
    (memories : List Memory) (walks : Nat) :
    ((operation.run commentary
        (memories.map (·.descriptor commentary (.ofLevel amount 1)))).run
          (walks + memories.countP Memory.walked)).value =
      ((operation.request.fresh commentary (operation.slice (memories.map Memory.nodeType)),
          (operation.update (·.after operation.request) memories).map
            (·.descriptor commentary (.ofLevel amount 1))),
        walks + (operation.update (·.after operation.request) memories).countP Memory.walked) := by
  -- The descriptors in front and behind are left alone, and the walks for them stay counted.
  obtain ⟨others, hbefore, hafter⟩ := operation.exists_countP_update Memory.walked memories
  have hvalue := operation.request.value_run commentary hamount (operation.slice memories)
    (walks + others)
  rw [hbefore, hafter, ← Nat.add_assoc, ← Nat.add_assoc, update_eq, run, slice_map, slice_map,
    StateT.run_bind, Logged.value_bind, hvalue]
  simp [List.map_take, List.map_drop]

end Step

/-! ## Any number of steps -/

/-- What is in mind at position `p` after operations one after the other. -/
def Memory.through (p : Nat) (memory : Memory) : List Operation → Memory
  | [] => memory
  | operation :: operations =>
    through p (if operation.covers p then memory.after operation.request else memory) operations

/-- Operations are answered as if nothing were in mind. -/
theorem value_runOperations (commentary : Commentary) {amount : Nat} (operations : List Operation)
    (hamount : ∀ operation ∈ operations, ∀ asked,
      operation.request.levelOne? = some asked → asked = amount)
    (memories : List Memory) (walks : Nat) :
    ((runOperations commentary operations
        (memories.map (·.descriptor commentary (.ofLevel amount 1)))).run
          (walks + memories.countP Memory.walked)).value =
      ((freshAnswers commentary operations (memories.map Memory.nodeType),
          (memories.mapIdx fun p memory => memory.through p operations).map
            (·.descriptor commentary (.ofLevel amount 1))),
        walks + (memories.mapIdx fun p memory => memory.through p operations).countP
          Memory.walked) := by
  induction operations generalizing memories with
  | nil =>
      have hself : memories.mapIdx (fun p memory => memory.through p []) = memories := by
        simp [Memory.through, List.mapIdx_eq_zipIdx_map]
      rw [hself]
      rfl
  | cons operation operations ih =>
      obtain ⟨hfirst, hrest⟩ := List.forall_mem_cons.1 hamount
      have hothers := ih hrest (operation.update (·.after operation.request) memories)
      have hthrough : (operation.update (·.after operation.request) memories).mapIdx
          (fun p memory => memory.through p operations) =
            memories.mapIdx fun p memory => memory.through p (operation :: operations) := by
        rw [Operation.update, List.mapIdx_mapIdx]
        rfl
      rw [operation.map_update Memory.nodeType operation.request.change fun _ => rfl, hthrough]
        at hothers
      rw [runOperations, StateT.run_bind, Logged.value_bind,
        operation.value_run commentary hfirst memories walks]
      simp [hothers, freshAnswers]

/-! ## What is remembered -/

/-- A node type has fields, if none yet, unless its production is code alone. -/
def NodeType.Begun (nodeType : NodeType) : Prop :=
  nodeType.production.choices?.isSome → nodeType.fields?.isSome

namespace NodeType.Begun

theorem ofProduction (config : Config) (production : Production) :
    (NodeType.ofProduction config production).Begun := by
  simp [Begun, NodeType.ofProduction]

theorem addField (nodeType : NodeType) (type name : String) (initial code : Option String) :
    (nodeType.addField type name initial code).Begun :=
  fun _ => rfl

theorem addParts {config : Config} {nodeType : NodeType} (h : nodeType.Begun) (i : Nat)
    (parts : List Part) : (TreeSmith.addParts config nodeType i parts).Begun := by
  induction parts generalizing nodeType i with
  | nil => exact h
  | cons part parts ih => exact ih (addField nodeType _ _ _ _) (i + 1)

theorem lower (config : Config) (production : Production) :
    (NodeType.lower config production).Begun := by
  have hstart := ofProduction config production
  unfold NodeType.lower
  cases production.body with
  | code text => exact hstart
  | choices choices =>
      dsimp only
      split
      · exact addField _ _ _ _ _
      · exact addParts hstart 0 _

end NodeType.Begun

namespace Request

theorem production_change (request : Request) (nodeType : NodeType) :
    (request.change nodeType).production = nodeType.production := by
  cases request <;> rfl

theorem begun_change (request : Request) {nodeType : NodeType} (h : nodeType.Begun) :
    (request.change nodeType).Begun := by
  cases request with
  | addField type name initial code => exact .addField nodeType type name initial code
  | _ => exact h

/-- Lines for visitors are needed by requests at level one. -/
theorem needs_eq_visitDoc (request : Request) (nodeType : NodeType) :
    request.needs nodeType = .visitDoc ↔ request.levelOne?.isSome = true := by
  cases request with
  | fieldDocs amount level => by_cases h : level = 1 <;> simp [needs, levelOne?, h]
  | interface config flavor => cases h : config.javadocComments <;> simp [needs, levelOne?, h]
  | depthFirst config =>
      cases h : config.javadocComments && !config.inlineAcceptMethods <;>
        simp [needs, levelOne?, h]
  | _ => simp [needs, levelOne?]

/-- With fields or choices to comment on, nothing is needed only if comments are not wanted. -/
theorem needs_eq_nothing (request : Request) {nodeType : NodeType} (hbegun : nodeType.Begun)
    (hchoices : nodeType.production.choices?.isSome = true) :
    request.needs nodeType = .nothing ↔ request.needsComments = false := by
  cases request with
  | fieldDocs amount level => by_cases h : level = 1 <;> simp [needs, needsComments, h]
  | declaration config => simp [needs, needsComments, hbegun hchoices]
  | depthFirst config =>
      cases h : config.inlineAcceptMethods <;> simp [needs, needsComments, h]
  | _ => simp [needs, needsComments]

end Request

namespace Memory

variable (p : Nat)

theorem through_append (memory : Memory) (before after : List Operation) :
    memory.through p (before ++ after) = (memory.through p before).through p after := by
  induction before generalizing memory with
  | nil => rfl
  | cons operation before ih => exact ih _

theorem production_through (memory : Memory) (operations : List Operation) :
    (memory.through p operations).nodeType.production = memory.nodeType.production := by
  induction operations generalizing memory with
  | nil => rfl
  | cons operation operations ih =>
      rw [through, ih]
      split
      · exact operation.request.production_change memory.nodeType
      · rfl

/-- Lines for visitors are in mind once there was a request at level one. -/
theorem known_through_eq_visitDoc (memory : Memory) (operations : List Operation) :
    (memory.through p operations).known = .visitDoc ↔ memory.known = .visitDoc ∨
      operations.any (fun operation =>
        operation.covers p && operation.request.levelOne?.isSome) = true := by
  induction operations generalizing memory with
  | nil => simp [through]
  | cons operation operations ih =>
      rw [through, ih, List.any_cons]
      cases hcovers : operation.covers p with
      | false => simp
      | true => simp [Request.needs_eq_visitDoc, or_assoc]

/-- Comments are in mind once they were needed. -/
theorem known_through_eq_nothing {memory : Memory} (hbegun : memory.nodeType.Begun)
    (hchoices : memory.nodeType.production.choices?.isSome = true)
    (operations : List Operation) :
    (memory.through p operations).known = .nothing ↔ memory.known = .nothing ∧
      operations.any (fun operation =>
        operation.covers p && operation.request.needsComments) = false := by
  induction operations generalizing memory with
  | nil => simp [through]
  | cons operation operations ih =>
      rw [through, List.any_cons]
      cases hcovers : operation.covers p with
      | false => simp [ih hbegun hchoices]
      | true =>
          have hlater := @ih (memory.after operation.request)
            (operation.request.begun_change hbegun)
            (by rwa [nodeType_after, Request.production_change])
          simp [hlater, Request.needs_eq_nothing _ hbegun hchoices, and_assoc]

theorem visitDoc_eq_some {commentary : Commentary} {home : Indent} {memory : Memory}
    {lines : Code} :
    (memory.descriptor commentary home).visitDoc = some lines ↔ memory.known = .visitDoc ∧
      commentary.fieldDocs home memory.nodeType.production = lines := by
  simp [descriptor]

theorem isSome_visitDoc {commentary : Commentary} {home : Indent} {memory : Memory} :
    (memory.descriptor commentary home).visitDoc.isSome = true ↔ memory.known = .visitDoc := by
  simp [Option.isSome_iff_exists, visitDoc_eq_some]

/-- A walk was made for a production with choices once its comments were needed. -/
theorem walked_through {nodeType : NodeType} (hbegun : nodeType.Begun)
    (operations : List Operation) :
    (through p ⟨nodeType, .nothing⟩ operations).walked =
      (nodeType.production.choices?.isSome && operations.any fun operation =>
        operation.covers p && operation.request.needsComments) := by
  rw [walked, production_through]
  cases hchoices : nodeType.production.choices?.isSome with
  | false => simp
  | true =>
      have hknown := @known_through_eq_nothing p ⟨nodeType, .nothing⟩ hbegun hchoices operations
      rw [Bool.and_true, Bool.true_and, Bool.eq_iff_iff, bne_iff_ne, Ne, hknown]
      simp

end Memory

/-! ## Runs -/

/-- **Descriptors answer as if they had no memory.** If all requests at level one agree about the
indent, the answers to any operations are those that are found out and rendered anew each time.
One walk was made for every production with choices whose comments have been needed. Lines for
visitors are held by the descriptors that had a request at level one, and never change. -/
theorem runOperations_fresh (commentary : Commentary) (amount : Nat) (nodeTypes : List NodeType)
    (before after : List Operation) (hbegun : ∀ nodeType ∈ nodeTypes, nodeType.Begun)
    (hamount : ∀ operation ∈ before ++ after, ∀ asked,
      operation.request.levelOne? = some asked → asked = amount) :
    ∃ middle last walks walks',
      ((runOperations commentary before (nodeTypes.map Descriptor.ofNodeType)).run 0).value =
        ((freshAnswers commentary before nodeTypes, middle), walks) ∧
      ((runOperations commentary (before ++ after)
          (nodeTypes.map Descriptor.ofNodeType)).run 0).value =
        ((freshAnswers commentary (before ++ after) nodeTypes, last), walks') ∧
      (walks = nodeTypes.zipIdx.countP fun (nodeType, p) =>
        nodeType.production.choices?.isSome && before.any fun operation =>
          operation.covers p && operation.request.needsComments) ∧
      ∀ p < nodeTypes.length,
        (middle[p]?.bind Descriptor.visitDoc).isSome = (before.any fun operation =>
          operation.covers p && operation.request.levelOne?.isSome) ∧
        ∀ lines, middle[p]?.bind Descriptor.visitDoc = some lines →
          last[p]?.bind Descriptor.visitDoc = some lines := by
  have hearly := value_runOperations commentary before
    (fun operation hmem => hamount operation (List.mem_append_left after hmem))
    (freshMemories nodeTypes) 0
  have hlate := value_runOperations commentary (before ++ after) hamount (freshMemories nodeTypes) 0
  rw [descriptors_fresh, nodeTypes_fresh, countP_walked_fresh] at hearly hlate
  -- What a descriptor holds is told by what is in mind at its position.
  have hat (operations : List Operation) (p : Nat) (hp : p < nodeTypes.length) :
      (((freshMemories nodeTypes).mapIdx fun p memory => memory.through p operations).map
        (·.descriptor commentary (.ofLevel amount 1)))[p]?.bind Descriptor.visitDoc =
          ((Memory.through p ⟨nodeTypes[p], .nothing⟩ operations).descriptor commentary
            (.ofLevel amount 1)).visitDoc := by
    simp [freshMemories, hp]
  refine ⟨_, _, _, _, hearly, hlate, ?_, fun p hp => ?_⟩
  · rw [Nat.zero_add, List.mapIdx_eq_zipIdx_map, freshMemories, List.zipIdx_map, List.map_map,
      List.countP_map]
    refine List.countP_congr fun item hitem => Bool.eq_iff_iff.1 ?_
    obtain ⟨nodeType, p⟩ := item
    exact Memory.walked_through p (hbegun nodeType (List.fst_mem_of_mem_zipIdx hitem)) before
  · rw [hat before p hp, hat (before ++ after) p hp, Memory.through_append]
    refine ⟨?_, fun lines hlines => ?_⟩
    · rw [Bool.eq_iff_iff, Memory.isSome_visitDoc, Memory.known_through_eq_visitDoc]
      simp
    · obtain ⟨hknown, rfl⟩ := Memory.visitDoc_eq_some.1 hlines
      exact Memory.visitDoc_eq_some.2
        ⟨(Memory.known_through_eq_visitDoc p _ after).2 (.inl hknown),
          by rw [Memory.production_through]⟩

/-- Two descriptors, one for code alone. The first one gets a field after its comments were asked
for, and lines at two levels. -/
theorem runOperations_fresh_interleaved :
    ∃ (config : Config) (expr skip : Production) (nodeTypes : List NodeType)
        (before after : List Operation) (middle last : List Descriptor) (walks : Nat),
      config = { javadocComments := true } ∧
      expr = ⟨"Expr", ⟨0, 20⟩, .choices [[.terminal ⟨7, 10⟩ "-" none,
        .nonTerminal ⟨19, 20⟩ "Expr" none]]⟩ ∧
      skip = ⟨"Skip", ⟨21, 30⟩, .code "skip()"⟩ ∧
      nodeTypes = [.lower config expr, .ofProduction config skip] ∧
      before = [⟨0, 1, .comments⟩, ⟨0, 1, .addField "NodeToken" "end" (some "null") none⟩,
        ⟨1, 1, .fieldDocs 2 2⟩, ⟨0, 1, .fieldDocs 2 1⟩, ⟨0, 2, .declaration config⟩] ∧
      after = [⟨0, 2, .interface config .void⟩, ⟨0, 1, .fieldDocs 4 3⟩,
        ⟨0, 1, .subComment config 2 1 7 none⟩, ⟨0, 2, .depthFirst config⟩] ∧
      ((runOperations ⟨[⟨⟨11, 18⟩, " negated"⟩], config⟩ before
          (nodeTypes.map Descriptor.ofNodeType)).run 0).value =
        ((freshAnswers ⟨[⟨⟨11, 18⟩, " negated"⟩], config⟩ before nodeTypes, middle), 1) ∧
      ((runOperations ⟨[⟨⟨11, 18⟩, " negated"⟩], config⟩ (before ++ after)
          (nodeTypes.map Descriptor.ofNodeType)).run 0).value =
        ((freshAnswers ⟨[⟨⟨11, 18⟩, " negated"⟩], config⟩ (before ++ after) nodeTypes, last),
          walks) ∧
      (middle[0]?.bind Descriptor.visitDoc).isSome = true ∧
      (middle[1]?.bind Descriptor.visitDoc).isSome = false := by
  obtain ⟨config, hconfig⟩ : ∃ config : Config, config = { javadocComments := true } := ⟨_, rfl⟩
  obtain ⟨middle, last, walks, walks', hearly, hlate, hwalks, hdocs⟩ :=
    runOperations_fresh ⟨[⟨⟨11, 18⟩, " negated"⟩], config⟩ 2
      [.lower config ⟨"Expr", ⟨0, 20⟩, .choices [[.terminal ⟨7, 10⟩ "-" none,
        .nonTerminal ⟨19, 20⟩ "Expr" none]]⟩,
        .ofProduction config ⟨"Skip", ⟨21, 30⟩, .code "skip()"⟩]
      [⟨0, 1, .comments⟩, ⟨0, 1, .addField "NodeToken" "end" (some "null") none⟩,
        ⟨1, 1, .fieldDocs 2 2⟩, ⟨0, 1, .fieldDocs 2 1⟩, ⟨0, 2, .declaration config⟩]
      [⟨0, 2, .interface config .void⟩, ⟨0, 1, .fieldDocs 4 3⟩,
        ⟨0, 1, .subComment config 2 1 7 none⟩, ⟨0, 2, .depthFirst config⟩]
      (by simp [NodeType.Begun.lower, NodeType.Begun.ofProduction])
      (by subst hconfig; simp [Request.levelOne?])
  obtain rfl : walks = 1 := by
    rw [hwalks, hconfig]
    decide
  refine ⟨config, _, _, _, _, _, middle, last, walks', hconfig, rfl, rfl, rfl, rfl, rfl, hearly,
    hlate, ?_, ?_⟩
  · rw [(hdocs 0 Nat.zero_lt_two).1, hconfig]
    decide
  · rw [(hdocs 1 Nat.one_lt_two).1, hconfig]
    decide

end TreeSmith

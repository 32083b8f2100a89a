import TreeSmith.NodeType.Declaration
import TreeSmith.Visitor.DepthFirst

/-!
# TreeSmith.Proofs.Generation.Memory

**What a descriptor remembers does not show.** A request to a descriptor is answered from what
it remembers, or by finding it out and remembering it. Either way the answer is the one that a
descriptor without a memory would give (`Ask.Answers`), so that the code written for a production
depends on its node type and its comments alone, and not on what was asked for before.

What carries this through a pass is that there are but three things a descriptor can have in mind
(`Knowledge`): nothing, the comments of its production, or also the lines about them for visitors,
which are rendered with one indent, here called `home`. A request tells what it needs to be known,
and afterwards just that is known besides what was known before.
-/

namespace TreeSmith

/-! ## What is written without a memory -/

/-- The sub-parts of a field are found at their numbers. -/
theorem Annotations.getElem?_of_mem_subsOf {annotations : Annotations} {i : Nat}
    {sub : Nat × SubPart} (h : sub ∈ annotations.subsOf i) :
    (annotations.subs.getD [])[sub.1]? = some sub.2 := by
  obtain ⟨hlisted, -⟩ := List.mem_filter.1 h
  obtain ⟨⟨found, k⟩, hmem, rfl⟩ := List.mem_map.1 hlisted
  exact List.mem_zipIdx_iff_getElem?.1 hmem

/-- The comments of field `i` and of its sub-parts, as code comments. -/
def inlineComments (config : Config) (indent : Indent) (i : Nat) (field : Field) :
    Option Annotations → Code
  | none => []
  | some known =>
    Ask.codeComments config indent (some field.name) (known.fields[i]?.getD []) ++
      (known.subsOf i).flatMap fun sub =>
        Ask.codeComments config indent (some ("s" ++ toString sub.1)) sub.2.block

/-- The visits of fields, the one at the head being number `i`. -/
def fieldVisits (config : Config) (indent : Indent) (known : Option Annotations) (i : Nat) :
    List Field → Code
  | [] => []
  | field :: fields =>
    inlineComments config indent i field known ++ userCode indent field ++
      fieldVisit indent field :: fieldVisits config indent known (i + 1) fields

/-- Of the settings, only one shows in the visits of fields. -/
theorem fieldVisits_congr {one two : Config} (h : one.debugComments = two.debugComments)
    (indent : Indent) (known : Option Annotations) (i : Nat) (fields : List Field) :
    fieldVisits one indent known i fields = fieldVisits two indent known i fields := by
  have hblock : Ask.codeComments one indent = Ask.codeComments two indent := by
    funext extra block
    rw [Ask.codeComments, h, Ask.codeComments]
  have hinline : inlineComments one indent = inlineComments two indent := by
    funext i field known
    cases known with
    | none => rfl
    | some known => rw [inlineComments, hblock, inlineComments]
  induction fields generalizing i with
  | nil => rfl
  | cons field fields ih => rw [fieldVisits, hinline, ih, fieldVisits]

namespace Commentary

variable (commentary : Commentary) (config : Config)

/-- Documentation lines of the comments of a production's fields, found out and rendered anew. -/
def fieldDocs (indent : Indent) (production : Production) : Code :=
  ((commentary.annotate production).map (Ask.docLines indent)).getD []

/-- The comments of field `i` of a production as code comments. -/
def fieldComment (indent : Indent) (i : Nat) (extra : Option String) (production : Production) :
    Code :=
  Ask.codeComments config indent extra
    (((commentary.annotate production).bind (·.fields[i]?)).getD [])

/-- The comments of sub-part `k` of a production as code comments, or a note that there is no such
sub-part. -/
def subComment (indent : Indent) (k : Nat) (extra : Option String) (production : Production) :
    Code :=
  match (commentary.annotate production).bind (·.subs) with
  | none => []
  | some subs =>
    match subs[k]? with
    | some sub => Ask.codeComments config indent extra sub.block
    | none => [indent.line ("// " ++ Event.badSubPartText k subs.length ++ Ask.noteText extra)]

/-- The comments of a sub-part that there is are the lines of its block. -/
theorem subComment_of_getElem? {commentary : Commentary} {config : Config}
    {production : Production} {known : Annotations} {k : Nat} {sub : SubPart}
    (hknown : commentary.annotate production = some known)
    (hsub : (known.subs.getD [])[k]? = some sub) (indent : Indent) (extra : Option String) :
    commentary.subComment config indent k extra production =
      Ask.codeComments config indent extra sub.block := by
  rw [subComment, hknown, Option.bind_some]
  cases hsubs : known.subs with
  | none => simp [hsubs] at hsub
  | some subs =>
      rw [hsubs, Option.getD_some] at hsub
      simp only [hsub]

/-- The comments of a production by their owners, where they are wanted. -/
def annotateIf (wanted : Bool) (production : Production) : Option Annotations :=
  if wanted then commentary.annotate production else none

/-- The class of a node type. -/
def declaration (nodeType : NodeType) : Code :=
  declarationCode config nodeType <|
    commentary.annotateIf (config.javadocComments && nodeType.fields?.isSome) nodeType.production

/-- The documentation of a visit of a node type. Its comments are shown unless `bare`. -/
def visitDoc (flavor : Flavor) (indent : Indent) (bare : Bool) (nodeType : NodeType) : Code :=
  codeIf config.javadocComments <|
    flavor.visitDocAround config indent nodeType.name <|
      codeIf (!bare) (commentary.fieldDocs indent nodeType.production)

/-- The body of the visit of a node type. -/
def visitBody (indent : Indent) (nodeType : NodeType) : Code :=
  fieldVisits config indent
    (commentary.annotateIf config.inlineAcceptMethods nodeType.production) 0 nodeType.fields

end Commentary

/-! ## What a descriptor has in mind -/

/-- How much is known about the comments of a production. -/
inductive Knowledge where
  | nothing
  /-- The comments by their owners. -/
  | comments
  /-- Also the documentation lines of visitors. -/
  | visitDoc
  deriving DecidableEq, Repr

namespace Knowledge

/-- What is known of two things. -/
def join : Knowledge → Knowledge → Knowledge
  | nothing, other => other
  | known, nothing => known
  | comments, comments => comments
  | _, _ => visitDoc

@[simp] theorem nothing_join (known : Knowledge) : nothing.join known = known := rfl

@[simp] theorem join_nothing (known : Knowledge) : known.join nothing = known := by
  cases known <;> rfl

theorem join_assoc (a b c : Knowledge) : (a.join b).join c = a.join (b.join c) := by
  cases a <;> cases b <;> cases c <;> rfl

/-- The comments, if they are wanted. -/
def commentsIf (wanted : Bool) : Knowledge :=
  if wanted then comments else nothing

/-- The lines for visitors, if they are wanted. -/
def visitDocIf (wanted : Bool) : Knowledge :=
  if wanted then visitDoc else nothing

@[simp] theorem commentsIf_true : commentsIf true = comments := rfl

@[simp] theorem commentsIf_false : commentsIf false = nothing := rfl

@[simp] theorem commentsIf_join (a b : Bool) :
    (commentsIf a).join (commentsIf b) = commentsIf (a || b) := by
  cases a <;> cases b <;> rfl

@[simp] theorem commentsIf_eq_nothing {wanted : Bool} :
    commentsIf wanted = nothing ↔ wanted = false := by
  cases wanted <;> decide

@[simp] theorem commentsIf_ne_visitDoc (wanted : Bool) : commentsIf wanted ≠ visitDoc := by
  cases wanted <;> decide

@[simp] theorem visitDocIf_eq_nothing {wanted : Bool} :
    visitDocIf wanted = nothing ↔ wanted = false := by
  cases wanted <;> decide

@[simp] theorem visitDocIf_eq_visitDoc {wanted : Bool} :
    visitDocIf wanted = visitDoc ↔ wanted = true := by
  cases wanted <;> decide

@[simp] theorem join_eq_nothing {a b : Knowledge} :
    a.join b = nothing ↔ a = nothing ∧ b = nothing := by
  cases a <;> cases b <;> decide

@[simp] theorem join_eq_visitDoc {a b : Knowledge} :
    a.join b = visitDoc ↔ a = visitDoc ∨ b = visitDoc := by
  cases a <;> cases b <;> decide

end Knowledge

/-- A node type and what is known about its comments. -/
structure Memory where
  nodeType : NodeType
  known : Knowledge

namespace Memory

/-- The descriptor that knows this much: what it remembers is what would be found out. -/
def descriptor (commentary : Commentary) (home : Indent) (memory : Memory) : Descriptor where
  nodeType := memory.nodeType
  annotations :=
    if memory.known = .nothing then none
    else some (commentary.annotate memory.nodeType.production)
  visitDoc :=
    if memory.known = .visitDoc then
      some (commentary.fieldDocs home memory.nodeType.production)
    else none

/-- Was a walk made to know this? A production that is code alone is not walked. -/
def walked (memory : Memory) : Bool :=
  memory.known != .nothing && memory.nodeType.production.choices?.isSome

/-- What is known once this is known, too. -/
def learn (memory : Memory) (needs : Knowledge) : Memory :=
  { memory with known := memory.known.join needs }

@[simp] theorem nodeType_learn (memory : Memory) (needs : Knowledge) :
    (memory.learn needs).nodeType = memory.nodeType := rfl

@[simp] theorem learn_nothing (memory : Memory) : memory.learn .nothing = memory := by
  rw [learn, Knowledge.join_nothing]

theorem learn_learn (memory : Memory) (one two : Knowledge) :
    (memory.learn one).learn two = memory.learn (one.join two) := by
  rw [learn, learn, learn, Knowledge.join_assoc]

/-- Who knows nothing has nothing in mind. -/
@[simp] theorem descriptor_nothing (commentary : Commentary) (home : Indent)
    (nodeType : NodeType) :
    descriptor commentary home ⟨nodeType, .nothing⟩ = Descriptor.ofNodeType nodeType := rfl

end Memory

namespace Ask

section Answers

variable {commentary : Commentary} {config : Config} {home : Indent} {nodeType : NodeType}
  {needs : Knowledge} {α β : Type}

/-- The request is answered by `answer`, whatever the descriptor of this node type remembers.
Afterwards it also remembers what the request needs, and a walk is counted if one was made. -/
def Answers (commentary : Commentary) (home : Indent) (nodeType : NodeType) (ask : Ask α)
    (answer : α) (needs : Knowledge) : Prop :=
  ∀ (memory : Memory) (walks : Nat), memory.nodeType = nodeType →
    ((ask.run (memory.descriptor commentary home)).run (walks + memory.walked.toNat)).value =
      ((answer, (memory.learn needs).descriptor commentary home),
        walks + (memory.learn needs).walked.toNat)

namespace Answers

theorem pure (answer : α) :
    Answers commentary home nodeType (Pure.pure answer) answer .nothing := by
  intro memory walks _
  rw [Memory.learn_nothing]
  rfl

theorem bind {ask : Ask α} {next : α → Ask β} {a : α} {b : β} {needs' : Knowledge}
    (hask : Answers commentary home nodeType ask a needs)
    (hnext : Answers commentary home nodeType (next a) b needs') :
    Answers commentary home nodeType (ask >>= next) b (needs.join needs') := by
  intro memory walks hnode
  rw [StateT.run_bind, StateT.run_bind, Logged.value_bind, hask memory walks hnode,
    ← Memory.learn_learn]
  exact hnext (memory.learn needs) walks hnode

/-- What is made of an answer needs nothing more. -/
theorem map {ask : Ask α} {a : α} (hask : Answers commentary home nodeType ask a needs)
    (f : α → β) :
    Answers commentary home nodeType (ask >>= fun a => Pure.pure (f a)) (f a) needs := by
  have hmap : Answers commentary home nodeType (ask >>= fun a => Pure.pure (f a)) (f a)
      (needs.join .nothing) := hask.bind (pure (f a))
  rwa [Knowledge.join_nothing] at hmap

/-- What is needed may be told in another way. -/
theorem needing {ask : Ask α} {a : α} {needs' : Knowledge}
    (hask : Answers commentary home nodeType ask a needs) (h : needs = needs') :
    Answers commentary home nodeType ask a needs' :=
  h ▸ hask

/-- A request may look at its descriptor; of that, it may use the node type. -/
theorem ofGet {next : Descriptor → Ask β} {b : β}
    (h : ∀ descriptor, descriptor.nodeType = nodeType →
      Answers commentary home nodeType (next descriptor) b needs) :
    Answers commentary home nodeType (get >>= next) b needs :=
  fun memory walks hnode => h (memory.descriptor commentary home) hnode memory walks hnode

/-- Reports do not change an answer. -/
theorem report (event : Event) :
    Answers commentary home nodeType (StateT.lift (Pass.report event)) () .nothing := by
  intro memory walks _
  rw [Memory.learn_nothing]
  rfl

end Answers

/-! ## What is remembered -/

/-- A walk finds the comments by their owners; one is counted if the production has choices. -/
theorem value_walk (commentary : Commentary) (production : Production) (walks : Nat) :
    ((commentary.walk production).run walks).value =
      (commentary.annotate production, walks + production.choices?.isSome.toNat) := by
  unfold Commentary.walk Commentary.annotate
  cases production.choices? <;> rfl

/-- A request for the comments is answered by their owners. -/
theorem answers_annotations (commentary : Commentary) (home : Indent) (nodeType : NodeType) :
    Answers commentary home nodeType (annotations commentary)
      (commentary.annotate nodeType.production) .comments := by
  rintro ⟨nodeType, known⟩ walks rfl
  let remember (found : Option Annotations × Nat) : (Option Annotations × Descriptor) × Nat :=
    ((found.1, { nodeType := nodeType, annotations := some found.1, visitDoc := none }), found.2)
  cases known with
  -- The first request walks over the production, if it has choices, and remembers the result.
  | nothing => exact congrArg remember (value_walk commentary nodeType.production walks)
  | comments => rfl
  | visitDoc => rfl

theorem answers_freshFieldDocs (commentary : Commentary) (home indent : Indent)
    (nodeType : NodeType) :
    Answers commentary home nodeType (freshFieldDocs commentary indent)
      (commentary.fieldDocs indent nodeType.production) .comments := by
  refine ((answers_annotations commentary home nodeType).bind ?_).needing
    (Knowledge.join_nothing .comments)
  unfold Commentary.fieldDocs
  cases commentary.annotate nodeType.production with
  | none => exact .pure _
  | some known => exact .pure _

/-- Only lines at level one are remembered, and these are all asked for with the same indent. -/
theorem answers_fieldDocs (commentary : Commentary) {home indent : Indent} (nodeType : NodeType)
    (hhome : indent.level = 1 → indent = home) :
    Answers commentary home nodeType (fieldDocs commentary indent)
      (commentary.fieldDocs indent nodeType.production)
      (if indent.level = 1 then .visitDoc else .comments) := by
  unfold fieldDocs
  split
  · rename_i hlevel
    obtain rfl := hhome hlevel
    rintro ⟨nodeType, known⟩ walks rfl
    let remember (found : (Code × Descriptor) × Nat) : (Code × Descriptor) × Nat :=
      ((found.1.1, { found.1.2 with visitDoc := some found.1.1 }), found.2)
    have hfresh :=
      answers_freshFieldDocs commentary indent indent nodeType ⟨nodeType, known⟩ walks rfl
    cases known with
    | visitDoc => rfl
    -- The lines are found out and remembered, with the comments if these were not known either.
    | nothing | comments => exact congrArg remember hfresh
  · exact answers_freshFieldDocs commentary home indent nodeType

/-! ## The code of one node type -/

theorem answers_fieldComment (commentary : Commentary) (config : Config) (home indent : Indent)
    (nodeType : NodeType) (i : Nat) (extra : Option String) :
    Answers commentary home nodeType (fieldComment commentary config indent i extra)
      (commentary.fieldComment config indent i extra nodeType.production) .comments := by
  refine ((answers_annotations commentary home nodeType).bind ?_).needing
    (Knowledge.join_nothing .comments)
  unfold Commentary.fieldComment
  cases (commentary.annotate nodeType.production).bind (·.fields[i]?) with
  | none => exact .pure _
  | some block => exact .pure _

theorem answers_subComment (commentary : Commentary) (config : Config) (home indent : Indent)
    (nodeType : NodeType) (k : Nat) (extra : Option String) :
    Answers commentary home nodeType (subComment commentary config indent k extra)
      (commentary.subComment config indent k extra nodeType.production) .comments := by
  refine ((answers_annotations commentary home nodeType).bind ?_).needing
    (Knowledge.join_nothing .comments)
  unfold Commentary.subComment
  cases (commentary.annotate nodeType.production).bind (·.subs) with
  | none => exact .pure _
  | some subs =>
      cases hsub : subs[k]? with
      | some sub =>
          simp only [hsub]
          exact .pure _
      | none =>
          simp only [hsub]
          exact .ofGet fun _ _ => (Answers.report _).bind (.pure _)

theorem answers_subComments {known : Annotations} {subs : List (Nat × SubPart)}
    (hknown : commentary.annotate nodeType.production = some known)
    (hsubs : ∀ sub ∈ subs, (known.subs.getD [])[sub.1]? = some sub.2) (indent : Indent) :
    Answers commentary home nodeType
      (subComments commentary config indent (subs.map Prod.fst))
      (subs.flatMap fun sub =>
        codeComments config indent (some ("s" ++ toString sub.1)) sub.2.block)
      (.commentsIf !subs.isEmpty) := by
  induction subs with
  | nil => exact .pure _
  | cons sub subs ih =>
      obtain ⟨hsub, hrest⟩ := List.forall_mem_cons.1 hsubs
      have hfirst := answers_subComment commentary config home indent nodeType sub.1
        (some ("s" ++ toString sub.1))
      rw [Commentary.subComment_of_getElem? hknown hsub] at hfirst
      exact (hfirst.bind ((ih hrest).map _)).needing (Knowledge.commentsIf_join true _)

end Answers

end Ask

namespace Ask

variable (commentary : Commentary) (config : Config) (home indent : Indent) (nodeType : NodeType)

theorem answers_declaration :
    Answers commentary home nodeType (Ask.declaration commentary config)
      (commentary.declaration config nodeType)
      (.commentsIf (config.javadocComments && nodeType.fields?.isSome)) := by
  refine .ofGet fun descriptor hnode => ?_
  rw [hnode, Commentary.declaration]
  dsimp only
  cases config.javadocComments && nodeType.fields?.isSome with
  | true => exact (answers_annotations commentary home nodeType).map _
  | false => exact .pure _

theorem answers_inlineComments {known : Option Annotations}
    (hknown : ∀ found, known = some found →
      commentary.annotate nodeType.production = some found) (i : Nat) (field : Field) :
    Answers commentary home nodeType (inlineComments commentary config indent i field known)
      (TreeSmith.inlineComments config indent i field known) (.commentsIf known.isSome) := by
  cases known with
  | none => exact .pure _
  | some found =>
      have hfound := hknown found rfl
      have hfield := answers_fieldComment commentary config home indent nodeType i
        (some field.name)
      rw [Commentary.fieldComment, hfound, Option.bind_some] at hfield
      exact (hfield.bind ((answers_subComments hfound
        (fun _ => Annotations.getElem?_of_mem_subsOf) indent).map _)).needing
          (Knowledge.commentsIf_join true _)

theorem answers_fieldVisits {known : Option Annotations}
    (hknown : ∀ found, known = some found →
      commentary.annotate nodeType.production = some found) (i : Nat) (fields : List Field) :
    Answers commentary home nodeType (fieldVisits commentary config indent known i fields)
      (TreeSmith.fieldVisits config indent known i fields)
      (.commentsIf (known.isSome && !fields.isEmpty)) := by
  induction fields generalizing i with
  | nil => exact (Answers.pure _).needing (by simp)
  | cons field fields ih =>
      refine ((answers_inlineComments commentary config home indent nodeType hknown i
        field).bind ((ih (i + 1)).map _)).needing ?_
      rw [Knowledge.commentsIf_join]
      cases known.isSome <;> rfl

theorem answers_visitBody :
    Answers commentary home nodeType (visitBody commentary config indent)
      (commentary.visitBody config indent nodeType) (.commentsIf config.inlineAcceptMethods) := by
  refine .ofGet fun descriptor hnode => ?_
  rw [hnode, Commentary.visitBody]
  cases config.inlineAcceptMethods with
  | true =>
      exact ((answers_annotations commentary home nodeType).bind
        (answers_fieldVisits commentary config home indent nodeType (fun _ => id) 0 _)).needing
          (Knowledge.commentsIf_join true _)
  | false =>
      exact answers_fieldVisits commentary config home indent nodeType
        (fun _ h => (Option.some_ne_none _ h.symm).elim) 0 _

theorem answers_visitDoc (flavor : Flavor) (bare : Bool) (hlevel : indent.level = 1)
    (hhome : (config.javadocComments && !bare) = true → indent = home) :
    Answers commentary home nodeType (flavor.visitDoc commentary config indent bare)
      (commentary.visitDoc config flavor indent bare nodeType)
      (.visitDocIf (config.javadocComments && !bare)) := by
  unfold Flavor.visitDoc Commentary.visitDoc
  cases hdoc : config.javadocComments with
  | false => exact .pure _
  | true =>
      refine .ofGet fun descriptor hnode => ?_
      rw [hnode]
      cases bare with
      | true => exact .pure _
      | false =>
          have hlines := answers_fieldDocs commentary nodeType fun _ => hhome (by rw [hdoc]; rfl)
          rw [if_pos hlevel] at hlines
          exact hlines.map _

end Ask

end TreeSmith

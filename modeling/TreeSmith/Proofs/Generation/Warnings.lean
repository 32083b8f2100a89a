import TreeSmith.Proofs.Generation.Units

/-!
# TreeSmith.Proofs.Generation.Warnings

**A pass warns of nothing.** The one warning that code generation knows is about a sub-part that
does not exist (`Event.badSubPart`). The visits of a depth-first visitor ask for sub-parts by
number, and take the numbers from the very list that they are looked up in, so the warning never
comes up: not for any grammar, and neither if the pass succeeds nor if it fails
(`quiet_generate`).

What a request reports can depend on what its descriptor remembers, so being quiet is said of a
request as its answer is: whatever the descriptor has in mind (`Ask.Quiet`). In a sequence of
requests the answer of one tells with which the next one goes on.
-/

namespace TreeSmith

/-! ## Events -/

namespace Logged

/-- None of the events is a warning. -/
def Quiet {α : Type} (logged : Logged α) : Prop :=
  ∀ event ∈ logged.events, event.level ≠ .warn

variable {α β : Type}

theorem quiet_of_events_eq_nil {logged : Logged α} (h : logged.events = []) : logged.Quiet := by
  intro event hevent
  rw [h] at hevent
  cases hevent

theorem quiet_pure (a : α) : (pure a : Logged α).Quiet :=
  quiet_of_events_eq_nil rfl

theorem quiet_report {event : Event} (h : event.level ≠ .warn) : (report event).Quiet := by
  intro other hother
  rw [List.mem_singleton.1 hother]
  exact h

theorem Quiet.bind {logged : Logged α} {next : α → Logged β} (h : logged.Quiet)
    (hnext : (next logged.value).Quiet) : (logged >>= next).Quiet := by
  intro event hevent
  rcases List.mem_append.1 hevent with hevent | hevent
  · exact h event hevent
  · exact hnext event hevent

end Logged

/-! ## Requests to one descriptor -/

namespace Ask

variable {commentary : Commentary} {config : Config} {home indent : Indent} {nodeType : NodeType}
  {needs : Knowledge} {α β : Type}

/-- The request warns of nothing, whatever the descriptor of this node type remembers. -/
def Quiet (commentary : Commentary) (home : Indent) (nodeType : NodeType) (ask : Ask α) : Prop :=
  ∀ (memory : Memory) (walks : Nat), memory.nodeType = nodeType →
    ((ask.run (memory.descriptor commentary home)).run (walks + memory.walked.toNat)).Quiet

namespace Quiet

theorem pure (answer : α) : Quiet commentary home nodeType (Pure.pure answer) :=
  fun _ _ _ => Logged.quiet_pure _

/-- The second request starts from what the first one left in mind. -/
theorem bind {ask : Ask α} {next : α → Ask β} {a : α}
    (hask : Quiet commentary home nodeType ask)
    (hanswer : Answers commentary home nodeType ask a needs)
    (hnext : Quiet commentary home nodeType (next a)) :
    Quiet commentary home nodeType (ask >>= next) := by
  intro memory walks hnode
  rw [StateT.run_bind, StateT.run_bind]
  refine (hask memory walks hnode).bind ?_
  rw [hanswer memory walks hnode]
  exact hnext (memory.learn needs) walks hnode

theorem map {ask : Ask α} (hask : Quiet commentary home nodeType ask) (f : α → β) :
    Quiet commentary home nodeType (ask >>= fun a => Pure.pure (f a)) := by
  intro memory walks hnode
  rw [StateT.run_bind, StateT.run_bind]
  exact (hask memory walks hnode).bind (Logged.quiet_pure _)

theorem ofGet {next : Descriptor → Ask β}
    (h : ∀ descriptor, descriptor.nodeType = nodeType →
      Quiet commentary home nodeType (next descriptor)) :
    Quiet commentary home nodeType (get >>= next) :=
  fun memory walks hnode => h (memory.descriptor commentary home) hnode memory walks hnode

theorem report {event : Event} (h : event.level ≠ .warn) :
    Quiet commentary home nodeType (StateT.lift (Pass.report event)) :=
  fun _ _ _ => (Logged.quiet_report h).bind (Logged.quiet_pure _)

end Quiet

/-- A walk over a production reports nothing. -/
theorem quiet_walk (commentary : Commentary) (production : Production) (walks : Nat) :
    ((commentary.walk production).run walks).Quiet := by
  unfold Commentary.walk
  cases commentary.annotate production with
  | none => exact Logged.quiet_of_events_eq_nil rfl
  | some found => exact Logged.quiet_of_events_eq_nil rfl

theorem quiet_annotations (commentary : Commentary) (home : Indent) (nodeType : NodeType) :
    Quiet commentary home nodeType (annotations commentary) := by
  rintro ⟨nodeType, known⟩ walks rfl
  cases known with
  | nothing =>
      exact ((quiet_walk commentary nodeType.production walks).bind (Logged.quiet_pure _)).bind
        (Logged.quiet_pure _)
  | comments => exact Logged.quiet_pure _
  | visitDoc => exact Logged.quiet_pure _

theorem quiet_freshFieldDocs (commentary : Commentary) (home indent : Indent)
    (nodeType : NodeType) :
    Quiet commentary home nodeType (freshFieldDocs commentary indent) := by
  refine (quiet_annotations commentary home nodeType).bind
    (answers_annotations commentary home nodeType) ?_
  cases commentary.annotate nodeType.production with
  | none => exact .pure _
  | some known => exact .pure _

theorem quiet_fieldDocs (commentary : Commentary) (home indent : Indent) (nodeType : NodeType) :
    Quiet commentary home nodeType (fieldDocs commentary indent) := by
  have hfresh := quiet_freshFieldDocs commentary home indent nodeType
  unfold fieldDocs
  split
  · rintro ⟨nodeType, known⟩ walks rfl
    cases known with
    | visitDoc => exact Logged.quiet_pure _
    | nothing | comments =>
        rw [StateT.run_bind, StateT.run_bind]
        refine (Logged.quiet_pure _).bind ?_
        show ((freshFieldDocs commentary indent >>= _).run _ |>.run _).Quiet
        rw [StateT.run_bind, StateT.run_bind]
        exact (hfresh ⟨nodeType, _⟩ walks rfl).bind (Logged.quiet_of_events_eq_nil rfl)
  · exact hfresh

theorem quiet_fieldComment (commentary : Commentary) (config : Config) (home indent : Indent)
    (nodeType : NodeType) (i : Nat) (extra : Option String) :
    Quiet commentary home nodeType (fieldComment commentary config indent i extra) := by
  refine (quiet_annotations commentary home nodeType).bind
    (answers_annotations commentary home nodeType) ?_
  cases (commentary.annotate nodeType.production).bind (·.fields[i]?) with
  | none => exact .pure _
  | some block => exact .pure _

/-- Only a sub-part that does not exist would be worth a warning. -/
theorem quiet_subComment {known : Annotations} {k : Nat} {sub : SubPart}
    (hknown : commentary.annotate nodeType.production = some known)
    (hsub : (known.subs.getD [])[k]? = some sub) (extra : Option String) :
    Quiet commentary home nodeType (subComment commentary config indent k extra) := by
  refine (quiet_annotations commentary home nodeType).bind
    (answers_annotations commentary home nodeType) ?_
  rw [hknown, Option.bind_some]
  cases hsubs : known.subs with
  | none => exact .pure _
  | some subs =>
      rw [hsubs, Option.getD_some] at hsub
      simp only [hsub]
      exact .pure _

theorem quiet_subComments {known : Annotations} {subs : List (Nat × SubPart)}
    (hknown : commentary.annotate nodeType.production = some known)
    (hsubs : ∀ sub ∈ subs, (known.subs.getD [])[sub.1]? = some sub.2) :
    Quiet commentary home nodeType
      (subComments commentary config indent (subs.map Prod.fst)) := by
  induction subs with
  | nil => exact .pure _
  | cons sub subs ih =>
      obtain ⟨hsub, hrest⟩ := List.forall_mem_cons.1 hsubs
      exact (quiet_subComment hknown hsub _).bind
        (answers_subComment commentary config home indent nodeType sub.1 _) ((ih hrest).map _)

/-- The numbers of sub-parts come from the list that they are looked up in. -/
theorem quiet_inlineComments {known : Option Annotations}
    (hknown : ∀ found, known = some found →
      commentary.annotate nodeType.production = some found) (i : Nat) (field : Field) :
    Quiet commentary home nodeType
      (inlineComments commentary config indent i field known) := by
  cases known with
  | none => exact .pure _
  | some found =>
      have hsubs : Quiet commentary home nodeType
          (subComments commentary config indent ((found.subsOf i).map Prod.fst)) :=
        quiet_subComments (hknown found rfl) fun _ => Annotations.getElem?_of_mem_subsOf
      exact (quiet_fieldComment commentary config home indent nodeType i _).bind
        (answers_fieldComment commentary config home indent nodeType i _) (hsubs.map _)

theorem quiet_fieldVisits {known : Option Annotations}
    (hknown : ∀ found, known = some found →
      commentary.annotate nodeType.production = some found) (i : Nat) (fields : List Field) :
    Quiet commentary home nodeType (fieldVisits commentary config indent known i fields) := by
  induction fields generalizing i with
  | nil => exact .pure _
  | cons field fields ih =>
      exact (quiet_inlineComments hknown i field).bind
        (answers_inlineComments commentary config home indent nodeType hknown i field)
        ((ih (i + 1)).map _)

theorem quiet_visitBody (commentary : Commentary) (config : Config) (home indent : Indent)
    (nodeType : NodeType) :
    Quiet commentary home nodeType (visitBody commentary config indent) := by
  refine .ofGet fun descriptor hnode => ?_
  rw [hnode]
  cases config.inlineAcceptMethods with
  | true =>
      exact (quiet_annotations commentary home nodeType).bind
        (answers_annotations commentary home nodeType) (quiet_fieldVisits (fun _ => id) 0 _)
  | false => exact quiet_fieldVisits (fun _ h => (Option.some_ne_none _ h.symm).elim) 0 _

theorem quiet_visitDoc (commentary : Commentary) (config : Config) (home indent : Indent)
    (nodeType : NodeType) (flavor : Flavor) (bare : Bool) :
    Quiet commentary home nodeType (flavor.visitDoc commentary config indent bare) := by
  unfold Flavor.visitDoc
  split
  · refine .ofGet fun descriptor hnode => ?_
    cases bare with
    | true => exact .pure _
    | false => exact (quiet_fieldDocs commentary home indent nodeType).map _
  · exact .pure _

theorem quiet_declaration (commentary : Commentary) (config : Config) (home : Indent)
    (nodeType : NodeType) :
    Quiet commentary home nodeType (declaration commentary config) := by
  refine .ofGet fun descriptor hnode => ?_
  dsimp only
  split
  · exact (quiet_annotations commentary home nodeType).map _
  · exact .pure _

end Ask

/-! ## Requests to all descriptors -/

section Requests

variable {commentary : Commentary} {config : Config} {home : Indent} {nodeTypes : List NodeType}
  {α : Type}

/-- A request to all descriptors of some node types warns of nothing, whatever they remember. -/
def AllQuiet (commentary : Commentary) (home : Indent) (nodeTypes : List NodeType)
    (request : List Descriptor → Pass α) : Prop :=
  ∀ (memories : List Memory) (walks : Nat), memories.map Memory.nodeType = nodeTypes →
    ((request (memories.map (·.descriptor commentary home))).run
      (walks + memories.countP Memory.walked)).Quiet

theorem allQuiet_askEach {ask : Ask α} {answer : NodeType → α} {needs : NodeType → Knowledge}
    (hanswer : ∀ nodeType,
      Ask.Answers commentary home nodeType ask (answer nodeType) (needs nodeType))
    (hquiet : ∀ nodeType, Ask.Quiet commentary home nodeType ask) (nodeTypes : List NodeType) :
    AllQuiet commentary home nodeTypes (askEach ask) := by
  rintro memories walks rfl
  induction memories generalizing walks with
  | nil => exact Logged.quiet_pure _
  | cons memory rest ih =>
      have hfirst := hquiet memory.nodeType memory (walks + rest.countP Memory.walked) rfl
      have hvalue := hanswer memory.nodeType memory (walks + rest.countP Memory.walked) rfl
      have hrest := ih (walks + (memory.learn (needs memory.nodeType)).walked.toNat)
      rw [Nat.add_right_comm] at hrest
      rw [countP_walked_cons, ← Nat.add_assoc, List.map_cons, askEach, StateT.run_bind]
      refine hfirst.bind ?_
      rw [hvalue, StateT.run_bind]
      exact hrest.bind (Logged.quiet_pure _)

theorem quiet_nodeTypeUnit (commentary : Commentary) (config : Config) (home : Indent)
    (nodeType : NodeType) :
    Ask.Quiet commentary home nodeType (nodeTypeUnit commentary config) := by
  refine (Ask.quiet_declaration commentary config home nodeType).bind
    (Ask.answers_declaration commentary config home nodeType) ?_
  refine .ofGet fun descriptor _ => ?_
  have hreport : (Event.generatedNodeType descriptor.nodeType.name).level ≠ .warn := nofun
  exact (Ask.Quiet.report hreport).map _

theorem allQuiet_interfaceCode (commentary : Commentary) (flavor : Flavor)
    (nodeTypes : List NodeType) :
    AllQuiet commentary (Indent.ofLevel config.indentAmount 1) nodeTypes
      (flavor.interfaceCode commentary config) := by
  intro memories walks hnodes
  rw [Flavor.interfaceCode, StateT.run_bind]
  refine (allQuiet_askEach (answers_declaredVisit config commentary flavor · fun _ => rfl)
    (fun nodeType => ?_) nodeTypes memories walks hnodes).bind (Logged.quiet_pure _)
  exact (Ask.quiet_visitDoc commentary config _ _ nodeType flavor false).bind
    (Ask.answers_visitDoc commentary config _ _ nodeType flavor false rfl fun _ => rfl)
    (.ofGet fun _ _ => .pure _)

theorem allQuiet_interfaceUnits (commentary : Commentary) (flavors : List Flavor)
    (nodeTypes : List NodeType) :
    AllQuiet commentary (Indent.ofLevel config.indentAmount 1) nodeTypes
      (interfaceUnits commentary config flavors) := by
  induction flavors with
  | nil => exact fun _ _ _ => Logged.quiet_pure _
  | cons flavor flavors ih =>
      intro memories walks hnodes
      let doc : NodeType → Knowledge := fun _ => .visitDocIf config.javadocComments
      have hvalue := allAnswer_interfaceCode config nodeTypes commentary flavor (fun _ => rfl)
        memories walks hnodes
      have hreport : (Event.generatedVisitor (flavor.name config)).level ≠ .warn := nofun
      have hrest := ih (learnAll doc memories) walks
        ((nodeTypes_learnAll doc memories).trans hnodes)
      rw [interfaceUnits, StateT.run_bind]
      refine (allQuiet_interfaceCode commentary flavor nodeTypes memories walks hnodes).bind ?_
      rw [hvalue]
      dsimp only
      rw [StateT.run_bind]
      refine Logged.Quiet.bind
        ((Logged.quiet_report hreport).bind (Logged.quiet_pure _)) ?_
      rw [StateT.run_bind]
      exact hrest.bind (Logged.quiet_pure _)

theorem allQuiet_depthFirstCode (commentary : Commentary) (nodeTypes : List NodeType) :
    AllQuiet commentary (Indent.ofLevel config.indentAmount 1) nodeTypes
      (depthFirstCode commentary config) := by
  intro memories walks hnodes
  rw [depthFirstCode, StateT.run_bind]
  refine (allQuiet_askEach (answers_definedVisit config commentary · fun _ => rfl)
    (fun nodeType => ?_) nodeTypes memories walks hnodes).bind (Logged.quiet_pure _)
  refine (Ask.quiet_visitDoc commentary config _ _ nodeType .void _).bind
    (Ask.answers_visitDoc commentary config _ _ nodeType .void _ rfl fun _ => rfl) ?_
  exact (Ask.quiet_visitBody commentary config _ _ nodeType).bind
    (Ask.answers_visitBody commentary config _ _ nodeType) (.ofGet fun _ _ => .pure _)

end Requests

/-! ## A pass -/

/-- Writing the files of a pass warns of nothing. -/
theorem quiet_generateUnits (config : Config) (comments : List Comment)
    (nodeTypes : List NodeType) (walks : Nat) :
    ((generateUnits config comments nodeTypes).run walks).Quiet := by
  let home := Indent.ofLevel config.indentAmount 1
  obtain ⟨needs, hinterfaces⟩ :=
    allAnswer_interfaceUnits config nodeTypes ⟨comments, config⟩ Flavor.all
  have hanswer := answers_nodeTypeUnit config ⟨comments, config⟩ home
  have hnodes := nodeTypes_fresh nodeTypes
  have hunits := allAnswer_askEach hanswer nodeTypes _ walks hnodes
  have hquiet := allQuiet_askEach hanswer (quiet_nodeTypeUnit ⟨comments, config⟩ config home)
    nodeTypes _ walks hnodes
  rw [descriptors_fresh, countP_walked_fresh, Nat.add_zero] at hunits hquiet
  rw [generateUnits, StateT.run_bind]
  refine hquiet.bind ?_
  rw [hunits, StateT.run_bind]
  have hlearnt := (nodeTypes_learnAll (fun nodeType =>
    .commentsIf (config.javadocComments && nodeType.fields?.isSome)) _).trans hnodes
  refine (allQuiet_interfaceUnits _ Flavor.all nodeTypes _ walks hlearnt).bind ?_
  rw [hinterfaces _ walks hlearnt, StateT.run_bind]
  refine (allQuiet_depthFirstCode _ nodeTypes _ walks
    ((nodeTypes_learnAll _ _).trans hlearnt)).bind ?_
  -- What is left is to count the walks, and to report how much was written.
  refine (Logged.quiet_pure _).bind (Logged.Quiet.bind ?_ (Logged.quiet_pure _))
  refine (Logged.quiet_report ?_).bind (Logged.quiet_pure _)
  show LogLevel.info ≠ .warn
  decide

theorem quiet_lowerLogged (config : Config) (production : Production) :
    (NodeType.lowerLogged config production).Quiet := by
  unfold NodeType.lowerLogged
  split
  · exact (Logged.quiet_report (by nofun)).bind (Logged.quiet_pure _)
  · exact Logged.quiet_pure _

theorem quiet_mapM_lowerLogged (config : Config) (productions : List Production) :
    (productions.mapM (NodeType.lowerLogged config)).Quiet := by
  induction productions with
  | nil => exact Logged.quiet_pure _
  | cons production rest ih =>
      rw [List.mapM_cons]
      exact (quiet_lowerLogged config production).bind (ih.bind (Logged.quiet_pure _))

/-- **A pass warns of nothing**, whatever the grammar. -/
theorem quiet_generate (config : Config) (grammar : Grammar) :
    (generate config grammar).Quiet := by
  unfold generate
  refine (quiet_mapM_lowerLogged config grammar.productions).bind ?_
  split
  · exact (Logged.quiet_report (by nofun)).bind (Logged.quiet_pure _)
  · exact (quiet_generateUnits config grammar.comments _ 0).bind (Logged.quiet_pure _)

end TreeSmith

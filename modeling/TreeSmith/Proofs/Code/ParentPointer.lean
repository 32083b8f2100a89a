import TreeSmith.Proofs.Code.Closure
import TreeSmith.Proofs.Code.Constructors
import TreeSmith.Proofs.Code.Documentation
import TreeSmith.Proofs.Code.Implementation
import TreeSmith.Proofs.Code.ParentCode

/-!
# TreeSmith.Proofs.Code.ParentPointer

**Every child that is stored is told who its parent is**, if nodes know their parents, and no other
line of code depends on whether they do.

Children are stored at a few places: in each constructor of a node type once for every field, and in
the support classes that hold nodes. Each emitter is compared with itself under the same settings
without parents, and what it writes more is found to be the registrations of just these children
(`withParents_declarationCode`, `withParents_supportCode`, `withParents_nodeInterface`).
-/

namespace TreeSmith

/-- The same settings, with a pointer to the parent. -/
def Config.withParents (config : Config) : Config :=
  { config with parentPointer := true }

/-- The same settings, without a pointer to the parent. -/
def Config.withoutParents (config : Config) : Config :=
  { config with parentPointer := false }

/-- All fields of a node type hold a child. -/
def NodeType.slots (nodeType : NodeType) : List ChildSlot :=
  nodeType.fields.map fun field => .single field.name

/-- The children that are stored in the class of a node type, by their fields: each constructor
stores one in every field. -/
def NodeType.stored (nodeType : NodeType) : List String :=
  nodeType.fields.map Field.name ++
    if nodeType.needsInitializing then nodeType.fields.map Field.name else []

namespace SupportClass

/-- The fields of a support class that hold children. -/
def slots : SupportClass → List ChildSlot
  | choice => [.single "choice"]
  | list | listOptional | sequence => [.list "nodes"]
  | optional => [.single "node"]
  | token => []

/-- The children that are stored in the support class, by their fields or parameters. -/
def stored : SupportClass → List String
  | choice => ["choice"]
  | list | listOptional | sequence | optional => ["n"]
  | token => []

end SupportClass

/-! ## What stands on one line -/

section SingleLine

variable {config : Config} {indent : Indent} {grammar : Grammar} {production : Production}

theorem singleLine_escape (text : String) : Text.SingleLine (Java.escape text) := by
  rw [Java.escape, Text.singleLine_ofList]
  intro hmem
  obtain ⟨c, -, hc⟩ := List.mem_flatMap.1 hmem
  revert hc
  unfold Java.escapeChar
  repeat' split
  all_goals first | decide | exact fun hc => absurd (List.mem_singleton.1 hc).symm ‹¬ c = '\n'›

theorem singleLine_intercalate {separator : String} (hseparator : Text.SingleLine separator)
    {texts : List String} (h : ∀ text ∈ texts, Text.SingleLine text) :
    Text.SingleLine (separator.intercalate texts) := by
  induction texts with
  | nil =>
      rw [String.intercalate_nil]
      decide
  | cons text texts ih =>
      obtain ⟨htext, hrest⟩ := List.forall_mem_cons.1 h
      cases texts with
      | nil => rwa [String.intercalate_singleton]
      | cons next texts =>
          rw [String.intercalate_cons_cons]
          exact Text.singleLine_append.2 ⟨Text.singleLine_append.2 ⟨htext, hseparator⟩, ih hrest⟩

theorem singleLine_parameterName (n : Nat) : Text.SingleLine (parameterName n) :=
  Text.singleLine_append.2 ⟨by decide, Text.singleLine_toString n⟩

theorem singleLine_classHeading (hconfig : config.SingleLine) {name : String}
    (hname : Text.SingleLine name) : Text.SingleLine (classHeading config name) := by
  simp only [classHeading, Text.singleLine_append]
  refine ⟨⟨⟨⟨by decide, hname⟩, ?_⟩, by decide⟩, hconfig.nodeInterface⟩
  split
  · rename_i superclass hsome
    exact Text.singleLine_append.2 ⟨by decide, hconfig superclass (by simp [hsome])⟩
  · decide

/-- If the grammar is fine, the types of fields are identifiers or set by the settings. -/
theorem singleLine_type_of_mem_fields (hconfig : config.SingleLine)
    (hnamed : WellNamed config grammar.productions) (hreferenced : grammar.WellReferenced)
    (hproduction : production ∈ grammar.productions) {field : Field}
    (hfield : field ∈ (NodeType.lower config production).fields) :
    Text.SingleLine field.type := by
  rcases List.mem_append.1 (type_mem_of_mem_fields hreferenced hproduction hfield) with
    hsupport | hnode
  · exact hconfig.supportName hsupport
  · obtain ⟨target, htarget, heq⟩ := List.mem_map.1 hnode
    rw [← heq]
    exact singleLine_of_isIdentifier (hnamed.identifiers target htarget)

/-- What a field is set to without a child for it builds a token from an escaped image. -/
theorem singleLine_initial_of_mem_fields (hconfig : config.SingleLine) {field : Field}
    (hfield : field ∈ (NodeType.lower config production).fields) {initial : String}
    (hinitial : field.initial = some initial) : Text.SingleLine initial := by
  rcases mem_fields_lower hfield with rfl | ⟨choices, part, i, -, -, rfl⟩
  · cases hinitial
  · obtain ⟨hpart, -⟩ := Option.filter_eq_some_iff.1 hinitial
    cases part with
    | terminal span image code =>
        rw [partInitial] at hpart
        split at hpart
        · cases hpart
        · rw [← Option.some.inj hpart]
          simp +decide [hconfig.nodeToken, singleLine_escape]
    | nonTerminal => cases hpart
    | composite => cases hpart

/-- A constructor assigns a parameter, or what the field is set to without a child. -/
theorem value_of_mem_assignments {kind : ConstructorKind} {n : Nat} {fields : List Field}
    {assignment : Assignment} (h : assignment ∈ assignments kind n fields) :
    (∃ k, assignment.value = parameterName k) ∨
      ∃ field ∈ fields, field.initial = some assignment.value := by
  induction fields generalizing n with
  | nil => cases h
  | cons field fields ih =>
      cases htakes : kind.takes field with
      | true =>
          rw [assignments_cons_of_takes htakes] at h
          rcases List.mem_cons.1 h with rfl | h
          · exact Or.inl ⟨n, rfl⟩
          · exact (ih h).imp_right fun ⟨field, hfield, heq⟩ =>
              ⟨field, List.mem_cons_of_mem _ hfield, heq⟩
      | false =>
          obtain ⟨initial, hinitial, heq⟩ := assignments_cons_of_not_takes htakes n fields
          rw [heq] at h
          rcases List.mem_cons.1 h with rfl | h
          · exact Or.inr ⟨field, List.mem_cons_self, hinitial⟩
          · exact (ih h).imp_right fun ⟨field, hfield, heq⟩ =>
              ⟨field, List.mem_cons_of_mem _ hfield, heq⟩

theorem singleLine_parameter {kind : ConstructorKind} {fields : List Field}
    (htypes : ∀ field ∈ fields, Text.SingleLine field.type) :
    ∀ text ∈ (parameters kind 0 fields).map Parameter.render, Text.SingleLine text := by
  rw [parameters_eq, List.map_map, List.forall_mem_map]
  rintro ⟨field, k⟩ hfield
  have htype := htypes field
    (List.mem_of_mem_filter (List.fst_mem_of_mem_zipIdx hfield))
  simp +decide [Parameter.render, htype, singleLine_parameterName]

end SingleLine

/-! ## What comes with parents -/

section Parents

variable {config : Config} {comments : List Comment} {slots : List ChildSlot}

/-- A method with one statement that overrides another. -/
theorem untouched_override {indent : Indent} (hslots : ChildSlot.Initialed slots)
    (hindent : indent.Spaced) {signature : String} (hsignature : Text.SingleLine signature)
    {statement : CodeLine} (hstatement : statement.Untouched comments slots) :
    ∀ line ∈ indent.line "@Override" :: indent.member ("public " ++ signature) [statement],
      line.Untouched comments slots := by
  have hopening : (indent.opening ("public " ++ signature)).Untouched comments slots :=
    untouched_opening hslots hindent (Text.head?_append rfl) (by decide)
      (Text.singleLine_append.2 ⟨by decide, hsignature⟩)
  exact List.forall_mem_cons.2 ⟨untouched_line hslots hindent rfl (by decide) (by decide),
    Indent.forall_mem_member.2 ⟨hopening, List.forall_mem_singleton.2 hstatement,
      untouched_closing hslots hindent, untouched_emptyLine hslots⟩⟩

/-- What comes with parents stores no child, and is whole lines of text. -/
theorem untouched_parentMember (hconfig : config.SingleLine) (hslots : ChildSlot.Initialed slots)
    (part : ParentMember) : ∀ line ∈ part.code config, line.Untouched [] slots := by
  have hindent := spaced_ofLevel config.indentAmount 1
  have hbody := spaced_ofLevel config.indentAmount 2
  have hset : Text.SingleLine (setParentSignature config) := (proper_setParent hconfig).signature
  have hget : Text.SingleLine (getParentSignature config) := (proper_getParent hconfig).signature
  cases part with
  | field =>
      have hdoc : OnlyComments [] [(Indent.ofLevel config.indentAmount 1).shortDoc
          "The parent node"] := .cons (isComment_shortDoc hindent (by decide)) .nil
      refine List.forall_mem_append.2 ⟨(hdoc.codeIf _).untouched hslots,
        untouched_paragraph hslots hindent (Text.head?_append (Text.head?_append rfl))
          (by decide) ?_⟩
      simp +decide [hconfig.nodeInterface]
  | setter =>
      exact List.forall_mem_append.2
        ⟨((onlyComments_setParentDoc hindent).codeIf _).untouched hslots,
          untouched_override hslots hindent hset
            (untouched_line hslots hbody rfl (by decide) (by decide))⟩
  | getter =>
      exact List.forall_mem_append.2
        ⟨((onlyComments_getParentDoc hindent).codeIf _).untouched hslots,
          untouched_override hslots hindent hget
            (untouched_line hslots hbody rfl (by decide) (by decide))⟩
  | setterDeclaration =>
      refine untouched_paragraph hslots hindent (Text.head?_append (Text.head?_append rfl))
        (by decide) ?_
      simp +decide [hset]
  | getterDeclaration =>
      refine untouched_paragraph hslots hindent (Text.head?_append (Text.head?_append rfl))
        (by decide) ?_
      simp +decide [hget]

theorem singleLine_registration (config : Config) {child : String}
    (hchild : Text.SingleLine child) : ∀ line ∈ registration config child, line.SingleLine := by
  refine List.forall_mem_cons.2 ⟨(singleLine_line (spaced_ofLevel ..)).2 ?_,
    List.forall_mem_singleton.2 ((singleLine_line (spaced_ofLevel ..)).2 ?_)⟩
  · simp +decide [hchild]
  · simp +decide [hchild]

end Parents

/-! ## What all node classes have -/

section Classes

variable {config : Config} {comments : List Comment} {slots : List ChildSlot}

/-- A statement that stores a child, and the registration of the child behind it. -/
theorem WithParents.stored (config : Config) (slot : ChildSlot) (value : String) {child : String}
    {c : Char} (hslot : slot ∈ slots) (hhead : slot.field.toList.head? = some c) (hc : c ≠ ' ')
    (hchild : slot.Names value child) (hstore : Text.SingleLine (slot.store value))
    (hname : Text.SingleLine child) {body : Indent} (hbody : body.Spaced) :
    WithParents config comments slots [] [child]
      (body.line (slot.store value) :: registration config child)
      [body.line (slot.store value)] := by
  have hline : (body.line (slot.store value)).StoresIn slot value :=
    unindent_line_of_head? hbody (ChildSlot.head?_store hhead value) hc
  have hsingle : ∀ added ∈ body.line (slot.store value) :: registration config child,
      added.SingleLine :=
    List.forall_mem_cons.2 ⟨(singleLine_line hbody).2 hstore, singleLine_registration config hname⟩
  have hstored : WithParents config comments slots [] [child] _ _ :=
    .store hslot hline hchild hsingle .nil
  rwa [List.append_nil] at hstored

theorem withParents_member (hconfig : config.SingleLine) (part : ParentMember) :
    WithParents config comments slots [part] [] (part.code config) [] := by
  have hmember : WithParents config comments slots [part] [] _ _ :=
    .member (fun line hline => (untouched_parentMember hconfig (List.forall_mem_nil _) part line
      hline).singleLine) .nil
  rwa [List.append_nil] at hmember

theorem untouched_acceptMethod (hconfig : config.SingleLine)
    (hslots : ChildSlot.Initialed slots) (flavor : Flavor) :
    ∀ line ∈ flavor.acceptMethod config, line.Untouched comments slots := by
  have hindent := spaced_ofLevel config.indentAmount 1
  have hforward : ((Indent.ofLevel config.indentAmount 2).line flavor.forward).Untouched
      comments slots := by
    cases flavor <;> exact untouched_line hslots (spaced_ofLevel ..) rfl (by decide) (by decide)
  exact List.forall_mem_append.2
    ⟨((onlyComments_acceptDoc hconfig hindent flavor).codeIf _).untouched hslots,
      untouched_override hslots hindent (singleLine_acceptSignature hconfig flavor) hforward⟩

/-- The end of a node class has the accessors of the parent in it. -/
theorem withParents_dispatchCode (hconfig : config.SingleLine)
    (hslots : ChildSlot.Initialed slots) :
    WithParents config comments slots [.setter, .getter] [] (dispatchCode config.withParents)
      (dispatchCode config.withoutParents) := by
  have haccepts : ∀ line ∈ Flavor.all.flatMap (Flavor.acceptMethod config),
      line.Untouched comments slots := by
    intro line hline
    obtain ⟨flavor, -, hline⟩ := List.mem_flatMap.1 hline
    exact untouched_acceptMethod hconfig hslots flavor line hline
  have haccessors : WithParents config comments slots [.setter, .getter] [] _ _ :=
    (withParents_member hconfig .setter).append (withParents_member hconfig .getter)
  have hclosing : WithParents config comments slots [] [] _ _ :=
    .line (untouched_closing hslots (spaced_ofLevel config.indentAmount 0)) .nil
  have hcode : parentAccessors config =
      ParentMember.setter.code config ++ ParentMember.getter.code config := List.append_assoc ..
  rw [← hcode] at haccessors
  exact ((WithParents.untouched haccepts).append haccessors).append hclosing

theorem withParents_parentField (hconfig : config.SingleLine) :
    WithParents config comments slots [.field] []
      (parentField config.withParents (.ofLevel config.indentAmount 1))
      (parentField config.withoutParents (.ofLevel config.indentAmount 1)) :=
  withParents_member hconfig .field

theorem untouched_serialField (config : Config) (hslots : ChildSlot.Initialed slots) :
    ∀ line ∈ serialField config (.ofLevel config.indentAmount 1),
      line.Untouched comments slots := by
  have hindent := spaced_ofLevel config.indentAmount 1
  have hdoc : OnlyComments comments [(Indent.ofLevel config.indentAmount 1).shortDoc
      "The serial version UID"] := .cons (isComment_shortDoc hindent (by decide)) .nil
  refine List.forall_mem_append.2 ⟨(hdoc.codeIf _).untouched hslots,
    untouched_paragraph hslots hindent (Text.head?_append (Text.head?_append rfl)) (by decide) ?_⟩
  simp +decide

/-- What all node classes start with. -/
theorem untouched_heading (hconfig : config.SingleLine) (hslots : ChildSlot.Initialed slots)
    {name : String} (hname : Text.SingleLine name) :
    ∀ line ∈ [(Indent.ofLevel config.indentAmount 0).opening (classHeading config name), emptyLine],
      line.Untouched comments slots := by
  have hheading : ((Indent.ofLevel config.indentAmount 0).opening
      (classHeading config name)).Untouched comments slots := by
    have hhead : (classHeading config name).toList.head? = some 'p' :=
      Text.head?_append (Text.head?_append (Text.head?_append (Text.head?_append rfl)))
    exact untouched_opening hslots (spaced_ofLevel ..) hhead (by decide)
      (singleLine_classHeading hconfig hname)
  exact List.forall_mem_cons.2
    ⟨hheading, List.forall_mem_singleton.2 (untouched_emptyLine hslots)⟩

end Classes

/-! ## The classes of node types -/

section NodeTypes

variable {config : Config} {comments : List Comment} {production : Production}

theorem initialed_slots (config : Config) (production : Production) :
    ChildSlot.Initialed (NodeType.lower config production).slots := by
  refine List.forall_mem_map.2 fun field hfield => ?_
  exact ⟨'f', by decide, head?_name_of_mem_fields hfield⟩

theorem alphanumeric_name_of_mem_fields {field : Field}
    (h : field ∈ (NodeType.lower config production).fields) : Text.Alphanumeric field.name := by
  rcases mem_fields_lower h with rfl | ⟨-, part, i, -, -, rfl⟩
  · decide
  · exact .append (by decide) (Text.alphanumeric_toString i)

theorem alphanumeric_slots (config : Config) (production : Production) :
    ∀ slot ∈ (NodeType.lower config production).slots, Text.Alphanumeric slot.field :=
  List.forall_mem_map.2 fun _ hfield => alphanumeric_name_of_mem_fields hfield

theorem alphanumeric_stored (config : Config) (production : Production) :
    ∀ child ∈ (NodeType.lower config production).stored, Text.Alphanumeric child := by
  have hnames : ∀ name ∈ (NodeType.lower config production).fields.map Field.name,
      Text.Alphanumeric name :=
    List.forall_mem_map.2 fun _ hfield => alphanumeric_name_of_mem_fields hfield
  refine List.forall_mem_append.2 ⟨hnames, ?_⟩
  split
  · exact hnames
  · exact List.forall_mem_nil _

/-- The constructors of a node type store what it is said to store. -/
theorem stored_eq (config : Config) (nodeType : NodeType) :
    (constructorsOf config nodeType).flatMap (fun constructor =>
      constructor.assigned.map Assignment.field) = nodeType.stored := by
  rw [constructorsOf, NodeType.stored, NodeType.fields]
  cases nodeType.fields? with
  | none => cases nodeType.needsInitializing <;> rfl
  | some fields =>
      have hassigned : ∀ kind, (Constructor.ofFields config fields kind).assigned.map
          Assignment.field = fields.map Field.name := fun kind => field_assignments kind 0 fields
      cases nodeType.needsInitializing <;> simp [hassigned]

/-- A child that is assigned to a field is told. -/
theorem withParents_assignment (hconfig : config.SingleLine) {kind : ConstructorKind}
    {assignment : Assignment}
    (h : assignment ∈ assignments kind 0 (NodeType.lower config production).fields) :
    WithParents config comments (NodeType.lower config production).slots [] [assignment.field]
      (assignment.code config.withParents) (assignment.code config.withoutParents) := by
  have hname : assignment.field ∈ (NodeType.lower config production).fields.map Field.name := by
    rw [← field_assignments kind 0]
    exact List.mem_map_of_mem h
  obtain ⟨field, hfield, heq⟩ := List.mem_map.1 hname
  have hsingle : Text.SingleLine assignment.field := heq ▸ singleLine_name_of_mem_fields hfield
  have hvalue : Text.SingleLine assignment.value := by
    rcases value_of_mem_assignments h with ⟨k, hk⟩ | ⟨other, hother, hinitial⟩
    · rw [hk]
      exact singleLine_parameterName k
    · exact singleLine_initial_of_mem_fields hconfig hother hinitial
  have hstore : Text.SingleLine (assignment.field ++ " = " ++ assignment.value ++ ";") := by
    simp only [Text.singleLine_append]
    exact ⟨⟨⟨hsingle, by decide⟩, hvalue⟩, by decide⟩
  exact WithParents.stored config (.single assignment.field) assignment.value
    (List.mem_map.2 ⟨field, hfield, congrArg ChildSlot.single heq⟩)
    (heq ▸ head?_name_of_mem_fields hfield) (by decide) (Or.inr rfl) hstore hsingle
    (spaced_ofLevel ..)

theorem onlyComments_doc_of_mem_constructorsOf (hconfig : config.SingleLine) {nodeType : NodeType}
    {constructor : Constructor} (h : constructor ∈ constructorsOf config nodeType) :
    OnlyComments comments constructor.doc := by
  have hindent := spaced_ofLevel config.indentAmount 1
  rcases mem_constructorsOf h with ⟨-, rfl⟩ | ⟨kind, rfl⟩
  · exact (onlyComments_childlessDoc hindent).codeIf _
  · exact (onlyComments_constructorDoc hconfig hindent _ kind).codeIf _

theorem withParents_constructor (hconfig : config.SingleLine)
    (htypes : ∀ field ∈ (NodeType.lower config production).fields, Text.SingleLine field.type)
    {name : String} (hname : Text.SingleLine name) {constructor : Constructor}
    (h : constructor ∈ constructorsOf config (NodeType.lower config production)) :
    WithParents config comments (NodeType.lower config production).slots []
      (constructor.assigned.map Assignment.field)
      (constructor.code config.withParents name) (constructor.code config.withoutParents name) := by
  have hslots := initialed_slots config production
  have hparameters : ∀ text ∈ constructor.parameters.map Parameter.render,
      Text.SingleLine text := by
    rcases mem_constructorsOf h with ⟨-, rfl⟩ | ⟨kind, rfl⟩
    · exact List.forall_mem_nil _
    · exact singleLine_parameter htypes
  have hheader : Text.SingleLine ("public " ++ name ++ "(" ++
      ", ".intercalate (constructor.parameters.map Parameter.render) ++ ")") := by
    simp only [Text.singleLine_append]
    exact ⟨⟨⟨⟨by decide, hname⟩, by decide⟩, singleLine_intercalate (by decide) hparameters⟩,
      by decide⟩
  have hassigned : ∀ assignment ∈ constructor.assigned,
      WithParents config comments (NodeType.lower config production).slots [] [assignment.field]
        (assignment.code config.withParents) (assignment.code config.withoutParents) := by
    rcases mem_constructorsOf h with ⟨-, rfl⟩ | ⟨kind, rfl⟩
    · exact List.forall_mem_nil _
    · exact fun assignment hassignment => withParents_assignment hconfig hassignment
  have hbody := WithParents.flatMap hassigned
  rw [← List.map_eq_flatMap] at hbody
  have hdoc : WithParents config comments (NodeType.lower config production).slots [] [] _ _ :=
    .untouched ((onlyComments_doc_of_mem_constructorsOf hconfig h).untouched hslots)
  exact hdoc.append (hbody.memberAround hslots (spaced_ofLevel ..)
    (Text.head?_append (Text.head?_append (Text.head?_append (Text.head?_append rfl))))
    (by decide) hheader)

theorem withParents_constructors (hconfig : config.SingleLine)
    (htypes : ∀ field ∈ (NodeType.lower config production).fields, Text.SingleLine field.type)
    (hname : Text.SingleLine (NodeType.lower config production).name) :
    WithParents config comments (NodeType.lower config production).slots []
      (NodeType.lower config production).stored
      (constructors config.withParents (NodeType.lower config production))
      (constructors config.withoutParents (NodeType.lower config production)) := by
  rw [constructors_eq, constructors_eq, ← stored_eq config]
  exact WithParents.flatMap fun constructor h => withParents_constructor hconfig htypes hname h

/-- Declarations of fields store nothing. -/
theorem untouched_declaredField {slots : List ChildSlot} {indent : Indent}
    (hslots : ChildSlot.Initialed slots) (hindent : indent.Spaced) {type name : String}
    (htype : Text.SingleLine type) (hname : Text.SingleLine name) :
    ∀ line ∈ indent.paragraph ("public " ++ type ++ " " ++ name ++ ";"),
      line.Untouched comments slots := by
  refine untouched_paragraph hslots hindent
    (Text.head?_append (Text.head?_append (Text.head?_append (Text.head?_append rfl))))
    (by decide) ?_
  simp only [Text.singleLine_append]
  exact ⟨⟨⟨⟨by decide, htype⟩, by decide⟩, hname⟩, by decide⟩

theorem untouched_fieldDeclarations {slots : List ChildSlot} {indent : Indent}
    (hslots : ChildSlot.Initialed slots) (hindent : indent.Spaced)
    {annotations : Option Annotations}
    (hfrom : ∀ known, annotations = some known → known.From comments) (i : Nat)
    {fields : List Field} (htypes : ∀ field ∈ fields, Text.SingleLine field.type)
    (hnames : ∀ field ∈ fields, Text.SingleLine field.name) :
    ∀ line ∈ fieldDeclarations indent annotations i fields, line.Untouched comments slots := by
  induction fields generalizing i with
  | nil => exact List.forall_mem_nil _
  | cons field fields ih =>
      obtain ⟨htype, hresttypes⟩ := List.forall_mem_cons.1 htypes
      obtain ⟨hname, hrestnames⟩ := List.forall_mem_cons.1 hnames
      refine List.forall_mem_append.2 ⟨List.forall_mem_append.2 ⟨?_, ?_⟩,
        ih (i + 1) hresttypes hrestnames⟩
      · exact (onlyComments_fieldDocAt hindent hfrom i).untouched hslots
      · exact untouched_declaredField hslots hindent htype hname

/-- **The class of a node type** has the field and the accessors for the parent, and tells all
children that it stores. -/
theorem withParents_declarationCode (hconfig : config.SingleLine)
    (htypes : ∀ field ∈ (NodeType.lower config production).fields, Text.SingleLine field.type)
    (hname : Text.SingleLine (NodeType.lower config production).name)
    {annotations : Option Annotations}
    (hfrom : ∀ known, annotations = some known → known.From comments) :
    WithParents config comments (NodeType.lower config production).slots
      [.field, .setter, .getter] (NodeType.lower config production).stored
      (declarationCode config.withParents (NodeType.lower config production) annotations)
      (declarationCode config.withoutParents (NodeType.lower config production) annotations) := by
  have hslots := initialed_slots config production
  have hheading : WithParents config comments (NodeType.lower config production).slots [] [] _ _ :=
    .untouched (untouched_heading hconfig hslots hname)
  have hfields : WithParents config comments (NodeType.lower config production).slots [] [] _ _ :=
    .untouched (untouched_fieldDeclarations hslots (spaced_ofLevel config.indentAmount 1) hfrom 0
      htypes fun _ hfield => singleLine_name_of_mem_fields hfield)
  have hserial : WithParents config comments (NodeType.lower config production).slots [] [] _ _ :=
    .untouched (untouched_serialField config hslots)
  have hclass := (((hheading.append hfields).append (withParents_parentField hconfig)).append
    hserial).append (withParents_constructors hconfig htypes hname)
  have hwhole := hclass.append (withParents_dispatchCode hconfig hslots)
  simp only [List.nil_append, List.append_nil] at hwhole
  exact hwhole

end NodeTypes

/-! ## The support classes -/

section Support

variable {config : Config} {comments : List Comment}

theorem SupportClass.initialed_slots (support : SupportClass) :
    ChildSlot.Initialed support.slots := by
  cases support with
  | choice => exact List.forall_mem_singleton.2 ⟨'c', by decide, rfl⟩
  | list | listOptional | sequence | optional =>
      exact List.forall_mem_singleton.2 ⟨'n', by decide, rfl⟩
  | token => exact List.forall_mem_nil _

theorem SupportClass.alphanumeric_slots (support : SupportClass) :
    ∀ slot ∈ support.slots, Text.Alphanumeric slot.field := by
  cases support <;> decide

theorem SupportClass.alphanumeric_stored (support : SupportClass) :
    ∀ child ∈ support.stored, Text.Alphanumeric child := by
  cases support <;> decide

theorem SupportClass.singleLine_name (hconfig : config.SingleLine) (support : SupportClass) :
    Text.SingleLine (support.name config) := by
  cases support <;> simp +decide [SupportClass.name, hconfig.nodeToken]

theorem untouched_fieldsCode (hconfig : config.SingleLine) (support : SupportClass) :
    ∀ line ∈ support.fieldsCode config (.ofLevel config.indentAmount 1),
      line.Untouched comments support.slots := by
  have hindent := spaced_ofLevel config.indentAmount 1
  have hsingle : ∀ field ∈ support.publicFields config, Text.SingleLine field.type ∧
      Text.SingleLine field.name ∧ Text.SingleLine field.doc := by
    cases support <;> simp +decide [SupportClass.publicFields, hconfig.nodeInterface]
  intro line hline
  obtain ⟨field, hfield, hline⟩ := List.mem_flatMap.1 hline
  obtain ⟨htype, hname, hdoc⟩ := hsingle field hfield
  have hshort : OnlyComments comments [(Indent.ofLevel config.indentAmount 1).shortDoc field.doc] :=
    .cons (isComment_shortDoc hindent hdoc) .nil
  exact List.forall_mem_append.2 ⟨(hshort.codeIf _).untouched support.initialed_slots,
    untouched_declaredField support.initialed_slots hindent htype hname⟩ line hline

/-- A new list has no child in it yet. -/
theorem untouched_newList (comments : List Comment) (amount : Nat) :
    ((Indent.ofLevel amount 2).line "nodes = new ArrayList<>();").Untouched comments
      [.list "nodes"] := by
  refine ⟨Or.inl ((singleLine_line (spaced_ofLevel ..)).2 (by decide)), ?_⟩
  refine List.forall_mem_singleton.2 fun value hstores => ?_
  rw [CodeLine.StoresIn, unindent_line_of_head? (spaced_ofLevel ..) rfl (by decide)] at hstores
  simp [ChildSlot.store] at hstores

/-- An optional node that is absent is no child. -/
theorem untouched_noNode (comments : List Comment) (amount : Nat) :
    ((Indent.ofLevel amount 2).line "node = null;").Untouched comments [.single "node"] := by
  refine ⟨Or.inl ((singleLine_line (spaced_ofLevel ..)).2 (by decide)), ?_⟩
  refine List.forall_mem_singleton.2 fun value hstores => ?_
  rw [CodeLine.StoresIn, unindent_line_of_head? (spaced_ofLevel ..) rfl (by decide)] at hstores
  have hassigned : "node = " ++ "null" ++ ";" = "node = " ++ value ++ ";" :=
    String.toList_inj.1 hstores
  rw [String.append_left_inj, String.append_right_inj] at hassigned
  exact hassigned.symm

/-- A public member of a support class. -/
theorem WithParents.publicMember {slots : List ChildSlot} {children : List String} {one two : Code}
    (hslots : ChildSlot.Initialed slots) (header : String)
    (hhead : header.toList.head? = some 'p') (hheader : Text.SingleLine header)
    (h : WithParents config comments slots [] children one two) :
    WithParents config comments slots [] children
      ((Indent.ofLevel config.indentAmount 1).member header one)
      ((Indent.ofLevel config.indentAmount 1).member header two) :=
  h.memberAround hslots (spaced_ofLevel ..) hhead (by decide) hheader

/-- A statement of a support class that stores no child. -/
theorem WithParents.statement {slots : List ChildSlot} {children : List String} {one two : Code}
    (hslots : ChildSlot.Initialed slots) (text : String) {c : Char}
    (hhead : text.toList.head? = some c) (hc : c ∉ [' ', 'c', 'f', 'n'])
    (hsingle : Text.SingleLine text) (h : WithParents config comments slots [] children one two) :
    WithParents config comments slots [] children
      ((Indent.ofLevel config.indentAmount 2).line text :: one)
      ((Indent.ofLevel config.indentAmount 2).line text :: two) :=
  .line (untouched_line hslots (spaced_ofLevel ..) hhead hc hsingle) h

/-- A list class stores a node where one is added. -/
theorem withParents_listMembers (hconfig : config.SingleLine) {name : String}
    (hname : Text.SingleLine name) :
    WithParents config comments [.list "nodes"] [] ["n"]
      (SupportClass.listMembers config.withParents name (.ofLevel config.indentAmount 1)
        (.ofLevel config.indentAmount 2) (.ofLevel config.indentAmount 3))
      (SupportClass.listMembers config.withoutParents name (.ofLevel config.indentAmount 1)
        (.ofLevel config.indentAmount 2) (.ofLevel config.indentAmount 3)) := by
  have hslots : ChildSlot.Initialed [.list "nodes"] := SupportClass.initialed_slots .list
  have hnode : Text.SingleLine config.nodeInterface := hconfig.nodeInterface
  have hnew := untouched_newList comments config.indentAmount
  have hempty : WithParents config comments [.list "nodes"] [] [] _ _ :=
    .publicMember hslots ("public " ++ name ++ "()") (Text.head?_append (Text.head?_append rfl))
      (by simp +decide [hname]) (.line hnew .nil)
  have hfirst : WithParents config comments [.list "nodes"] [] [] _ _ :=
    .publicMember hslots ("public " ++ name ++ "(final " ++ config.nodeInterface ++ " firstNode)")
      (Text.head?_append (Text.head?_append (Text.head?_append (Text.head?_append rfl))))
      (by simp +decide [hname, hnode])
      (.line hnew (.statement hslots "addNode(firstNode);" rfl (by decide) (by decide) .nil))
  have hadd : WithParents config comments [.list "nodes"] [] ["n"] _ _ :=
    .publicMember hslots ("public void addNode(final " ++ config.nodeInterface ++ " n)")
      (Text.head?_append (Text.head?_append rfl)) (by simp +decide [hnode])
      (.stored config (.list "nodes") "n" (by decide) rfl (by decide) (Or.inl rfl) (by decide)
        (by decide) (spaced_ofLevel config.indentAmount 2))
  have hget : WithParents config comments [.list "nodes"] [] [] _ _ :=
    .publicMember hslots ("public " ++ config.nodeInterface ++ " elementAt(final int i)")
      (Text.head?_append (Text.head?_append rfl)) (by simp +decide [hnode])
      (.statement hslots "return nodes.get(i);" rfl (by decide) (by decide) .nil)
  have hsize : WithParents config comments [.list "nodes"] [] [] _ _ :=
    .publicMember hslots "public int size()" rfl (by decide)
      (.statement hslots "return nodes.size();" rfl (by decide) (by decide) .nil)
  exact (((hempty.append hfirst).append hadd).append hget).append hsize

/-- The class of a choice stores its node in the constructor, where it is told by its field. -/
theorem withParents_choiceMembers (hconfig : config.SingleLine) :
    WithParents config comments [.single "choice"] [] ["choice"]
      (SupportClass.choice.members config.withParents)
      (SupportClass.choice.members config.withoutParents) := by
  have hslots : ChildSlot.Initialed [.single "choice"] := SupportClass.initialed_slots .choice
  have hnode : Text.SingleLine config.nodeInterface := hconfig.nodeInterface
  have hstored : WithParents config comments [.single "choice"] [] ["choice"] _ _ :=
    .stored config (.single "choice") "node" (by decide) rfl (by decide) (Or.inr rfl) (by decide)
      (by decide) (spaced_ofLevel config.indentAmount 2)
  have hnumbers : WithParents config comments [.single "choice"] [] [] _ _ :=
    .statement hslots "which = whichChoice;" rfl (by decide) (by decide)
      (.statement hslots "total = totalChoices;" rfl (by decide) (by decide) .nil)
  exact .publicMember hslots ("public " ++ "NodeChoice" ++ "(final " ++ config.nodeInterface ++
      " node, final int whichChoice, final int totalChoices)")
    (Text.head?_append (Text.head?_append (Text.head?_append (Text.head?_append rfl))))
    (by simp +decide [hnode]) (hstored.append hnumbers)

/-- The class of an optional node stores it where it is added, which is done once at most. -/
theorem withParents_optionalMembers (hconfig : config.SingleLine) :
    WithParents config comments [.single "node"] [] ["n"]
      (SupportClass.optional.members config.withParents)
      (SupportClass.optional.members config.withoutParents) := by
  have hslots : ChildSlot.Initialed [.single "node"] := SupportClass.initialed_slots .optional
  have hnode : Text.SingleLine config.nodeInterface := hconfig.nodeInterface
  have hempty : WithParents config comments [.single "node"] [] [] _ _ :=
    .publicMember hslots ("public " ++ "NodeOptional" ++ "()")
      (Text.head?_append (Text.head?_append rfl)) (by decide)
      (.line (untouched_noNode comments config.indentAmount) .nil)
  have hgiven : WithParents config comments [.single "node"] [] [] _ _ :=
    .publicMember hslots ("public " ++ "NodeOptional" ++ "(final " ++ config.nodeInterface ++ " n)")
      (Text.head?_append (Text.head?_append (Text.head?_append (Text.head?_append rfl))))
      (by simp +decide [hnode])
      (.statement hslots "addNode(n);" rfl (by decide) (by decide) .nil)
  have hstored : WithParents config comments [.single "node"] [] ["n"] _ _ :=
    .stored config (.single "node") "n" (by decide) rfl (by decide) (Or.inl rfl) (by decide)
      (by decide) (spaced_ofLevel config.indentAmount 2)
  have hthrow : ((Indent.ofLevel config.indentAmount 3).line
      "throw new Error(\"Attempt to set optional node twice\");").Untouched comments
        [.single "node"] :=
    untouched_line hslots (spaced_ofLevel ..) rfl (by decide) (by decide)
  have hadd : WithParents config comments [.single "node"] [] ["n"] _ _ :=
    .publicMember hslots ("public void addNode(final " ++ config.nodeInterface ++ " n)")
      (Text.head?_append (Text.head?_append rfl)) (by simp +decide [hnode])
      (.statement hslots "if (node != null)" rfl (by decide) (by decide) (.line hthrow hstored))
  have hpresent : WithParents config comments [.single "node"] [] [] _ _ :=
    .publicMember hslots "public boolean present()" rfl (by decide)
      (.statement hslots "return node != null;" rfl (by decide) (by decide) .nil)
  exact ((hempty.append hgiven).append hadd).append hpresent

/-- The members of a support class tell the children that it stores. -/
theorem withParents_members (hconfig : config.SingleLine) (support : SupportClass) :
    WithParents config comments support.slots [] support.stored
      (support.members config.withParents) (support.members config.withoutParents) := by
  cases support with
  | choice => exact withParents_choiceMembers hconfig
  | list => exact withParents_listMembers hconfig (SupportClass.singleLine_name hconfig .list)
  | sequence =>
      exact withParents_listMembers hconfig (SupportClass.singleLine_name hconfig .sequence)
  | listOptional =>
      have hpresent : WithParents config comments [.list "nodes"] [] [] _ _ :=
        .publicMember (SupportClass.initialed_slots .list) "public boolean present()" rfl
          (by decide) (.statement (SupportClass.initialed_slots .list) "return nodes.size() != 0;"
            rfl (by decide) (by decide) .nil)
      exact (withParents_listMembers hconfig
        (SupportClass.singleLine_name hconfig .listOptional)).append hpresent
  | optional => exact withParents_optionalMembers hconfig
  | token =>
      have hslots : ChildSlot.Initialed [] := List.forall_mem_nil _
      have hconstructor : WithParents config comments [] [] [] _ _ :=
        .publicMember hslots ("public " ++ config.nodeToken ++ "(final String s)")
          (Text.head?_append (Text.head?_append rfl)) (by simp +decide [hconfig.nodeToken])
          (.statement hslots "tokenImage = s;" rfl (by decide) (by decide) .nil)
      have htext : WithParents config comments [] [] [] _ _ :=
        .publicMember hslots "public String toString()" rfl (by decide)
          (.statement hslots "return tokenImage;" rfl (by decide) (by decide) .nil)
      have hoverride : ((Indent.ofLevel config.indentAmount 1).line "@Override").Untouched comments
          [] := untouched_line hslots (spaced_ofLevel ..) rfl (by decide) (by decide)
      exact hconstructor.append (.line hoverride htext)

/-- **A support class** has the field and the accessors for the parent, and tells all children that
it stores. -/
theorem withParents_supportCode (hconfig : config.SingleLine) (support : SupportClass) :
    WithParents config comments support.slots [.field, .setter, .getter] support.stored
      (support.code config.withParents) (support.code config.withoutParents) := by
  have hslots := support.initialed_slots
  have himport : WithParents config comments support.slots [] []
      (codeIf support.isList ((Indent.ofLevel config.indentAmount 0).paragraph
        "import java.util.ArrayList;"))
      (codeIf support.isList ((Indent.ofLevel config.indentAmount 0).paragraph
        "import java.util.ArrayList;")) := by
    refine .untouched ?_
    cases support.isList with
    | false => exact List.forall_mem_nil _
    | true => exact untouched_paragraph hslots (spaced_ofLevel ..) rfl (by decide) (by decide)
  have hheading : WithParents config comments support.slots [] [] _ _ :=
    .untouched (untouched_heading hconfig hslots (support.singleLine_name hconfig))
  have hfields : WithParents config comments support.slots [] [] _ _ :=
    .untouched (untouched_fieldsCode hconfig support)
  have hserial : WithParents config comments support.slots [] [] _ _ :=
    .untouched (untouched_serialField config hslots)
  have hclass := (((himport.append (hheading.append hfields)).append
    (withParents_parentField hconfig)).append hserial).append (withParents_members hconfig support)
  have hwhole := hclass.append (withParents_dispatchCode hconfig hslots)
  simp only [List.nil_append, List.append_nil] at hwhole
  exact hwhole

end Support

/-! ## The node interface -/

/-- **The node interface** declares the accessors of the parent. -/
theorem withParents_nodeInterface {config : Config} (hconfig : config.SingleLine)
    (comments : List Comment) :
    WithParents config comments [] [.setterDeclaration, .getterDeclaration] []
      (nodeInterface config.withParents) (nodeInterface config.withoutParents) := by
  have hslots : ChildSlot.Initialed [] := List.forall_mem_nil _
  have houter := spaced_ofLevel config.indentAmount 0
  have hindent := spaced_ofLevel config.indentAmount 1
  have hopening : ((Indent.ofLevel config.indentAmount 0).opening
      ("public interface " ++ config.nodeInterface)).Untouched comments [] :=
    untouched_opening hslots houter (Text.head?_append rfl) (by decide)
      (Text.singleLine_append.2 ⟨by decide, hconfig.nodeInterface⟩)
  have haccepts : ∀ line ∈ (Flavor.all.map (Flavor.acceptSignature config)).flatMap
      (fun signature => (Indent.ofLevel config.indentAmount 1).paragraph
        ("public " ++ signature ++ ";")), line.Untouched comments [] := by
    rw [List.flatMap_map]
    intro line hline
    obtain ⟨flavor, -, hline⟩ := List.mem_flatMap.1 hline
    refine untouched_paragraph hslots hindent (Text.head?_append (Text.head?_append rfl))
      (by decide) ?_ line hline
    simp +decide [singleLine_acceptSignature hconfig flavor]
  have haccessors :
      WithParents config comments [] [.setterDeclaration, .getterDeclaration] [] _ _ :=
    (withParents_member hconfig .setterDeclaration).append
      (withParents_member hconfig .getterDeclaration)
  have hclosing : WithParents config comments [] [] [] _ _ :=
    .line (untouched_closing hslots houter) .nil
  have hinside := ((WithParents.untouched haccepts).append haccessors).append hclosing
  have hwhole := WithParents.line hopening (.line (untouched_emptyLine hslots) hinside)
  rw [nodeInterface, nodeInterface, interfaceSignatures, interfaceSignatures, List.flatMap_append,
    List.flatMap_append]
  exact hwhole

end TreeSmith

import TreeSmith.Proofs.Code.Comments
import TreeSmith.Proofs.Generation.Units
import TreeSmith.Proofs.Lexical.Comments
import TreeSmith.Proofs.NodeType.Fields

/-!
# TreeSmith.Proofs.Code.Deletion

**The comment options change no line of code.** Three settings decide which comments are written,
and where. Whatever they are, all that they add or take away are lines of text that hold comments
and nothing else: those that start, behind their spaces, with `/**`, `*` or `//`. Without these
lines, the text of every unit is the same (`generate_withoutComments`).

Every emitter is compared with itself under the settings without comments (`Config.uncommented`):
what it writes besides is comments (`OnlyComments`), and these leave no text behind when comment
lines are deleted (`keptLines`).
-/

namespace TreeSmith

/-! ## Deleting comment lines -/

namespace Text

/-- The text without its comment lines. -/
def withoutCommentLines (text : String) : String :=
  String.ofList (['\n'].intercalate ((lines text.toList).filter (!isCommentLine ·)))

end Text

/-- The unit without its comment lines. -/
def CompilationUnit.withoutComments (unit : CompilationUnit) : CompilationUnit :=
  ⟨unit.name, Text.withoutCommentLines unit.text⟩

/-- The output without the comment lines of its units. -/
def Output.withoutComments (output : Output) : Output where
  nodeTypes := output.nodeTypes.map CompilationUnit.withoutComments
  nodeInterface := output.nodeInterface.withoutComments
  supportClasses := output.supportClasses.map CompilationUnit.withoutComments
  visitors := output.visitors.map CompilationUnit.withoutComments

/-- The same settings without any comments. -/
def Config.uncommented (config : Config) : Config :=
  { config with javadocComments := false, debugComments := false, inlineAcceptMethods := false }

/-- The lines of text that are left of some code when comment lines are deleted. -/
def keptLines (code : Code) : List (List Char) :=
  (textLines code).filter (!Text.isCommentLine ·)

theorem keptLines_append (a b : Code) : keptLines (a ++ b) = keptLines a ++ keptLines b := by
  rw [keptLines, textLines_append, List.filter_append]
  rfl

theorem keptLines_append_congr {a b c d : Code} (h : keptLines a = keptLines b)
    (h' : keptLines c = keptLines d) : keptLines (a ++ c) = keptLines (b ++ d) := by
  rw [keptLines_append, keptLines_append, h, h']

theorem keptLines_cons_congr (line : CodeLine) {a b : Code} (h : keptLines a = keptLines b) :
    keptLines (line :: a) = keptLines (line :: b) :=
  keptLines_append_congr (a := [line]) rfl h

theorem keptLines_flatMap_congr {α : Type} {f g : α → Code} {l : List α}
    (h : ∀ a ∈ l, keptLines (f a) = keptLines (g a)) :
    keptLines (l.flatMap f) = keptLines (l.flatMap g) := by
  induction l with
  | nil => rfl
  | cons a l ih =>
      obtain ⟨hfirst, hrest⟩ := List.forall_mem_cons.1 h
      rw [List.flatMap_cons, List.flatMap_cons]
      exact keptLines_append_congr hfirst (ih hrest)

/-- What deleting comment lines leaves of a text is decided by the lines that are kept. -/
theorem withoutCommentLines_congr {a b : Code} (h : keptLines a = keptLines b) :
    Text.withoutCommentLines (renderCode a) = Text.withoutCommentLines (renderCode b) := by
  rw [keptLines, keptLines] at h
  rw [Text.withoutCommentLines, Text.withoutCommentLines, lines_renderCode, lines_renderCode,
    List.filter_append, List.filter_append, h]

/-- Of comments nothing is kept, if there is no line feed in them. -/
theorem OnlyComments.keptLines {comments : List Comment}
    (hcomments : ∀ comment ∈ comments, Text.SingleLine comment.text) {code : Code}
    (h : OnlyComments comments code) : keptLines code = [] := by
  have hsingle : ∀ line ∈ code, line.SingleLine :=
    fun line hline => (h line hline).quotes.not_mem hcomments
  rw [TreeSmith.keptLines, textLines_of_singleLine hsingle, List.filter_eq_nil_iff]
  intro chars hchars
  obtain ⟨line, hline, rfl⟩ := List.mem_map.1 hchars
  simp [(h line hline).marked]

/-! ## What the settings change of a class -/

section Classes

variable {config : Config} {comments : List Comment}

/-- Documentation does not show in what is kept, be it wanted or not. -/
theorem keptLines_documented {doc : Code} (h : OnlyComments [] doc) (wanted : Bool)
    (code : Code) : keptLines (codeIf wanted doc ++ code) = keptLines code := by
  rw [keptLines_append, (h.codeIf wanted).keptLines (List.forall_mem_nil _), List.nil_append]

theorem keptLines_acceptMethod (hconfig : config.SingleLine) (flavor : Flavor) :
    keptLines (flavor.acceptMethod config) = keptLines (flavor.acceptMethod config.uncommented) :=
  keptLines_documented (onlyComments_acceptDoc hconfig (spaced_ofLevel ..) flavor) _ _

theorem keptLines_parentAccessors (config : Config) :
    keptLines (parentAccessors config) = keptLines (parentAccessors config.uncommented) := by
  have hindent := spaced_ofLevel config.indentAmount 1
  rw [parentAccessors, List.append_assoc, keptLines_append,
    keptLines_documented (onlyComments_setParentDoc hindent),
    keptLines_documented (onlyComments_getParentDoc hindent), ← keptLines_append]
  rfl

theorem keptLines_dispatchCode (hconfig : config.SingleLine) :
    keptLines (dispatchCode config) = keptLines (dispatchCode config.uncommented) := by
  have haccept := keptLines_flatMap_congr (l := Flavor.all) fun flavor _ =>
    keptLines_acceptMethod hconfig flavor
  have hparent : keptLines (codeIf config.parentPointer (parentAccessors config)) =
      keptLines (codeIf config.parentPointer (parentAccessors config.uncommented)) := by
    cases config.parentPointer with
    | true => exact keptLines_parentAccessors config
    | false => rfl
  exact keptLines_append_congr (keptLines_append_congr haccept hparent) rfl

theorem keptLines_parentField (config : Config) {indent : Indent} (hindent : indent.Spaced) :
    keptLines (parentField config indent) = keptLines (parentField config.uncommented indent) := by
  have hdoc : OnlyComments [] [indent.shortDoc "The parent node"] :=
    .cons (isComment_shortDoc hindent (by decide)) .nil
  have hfield := keptLines_documented hdoc config.javadocComments
    (indent.paragraph ("private " ++ config.nodeInterface ++ " parent;"))
  unfold parentField
  cases hparent : config.parentPointer with
  | true => simpa [Config.uncommented, hparent] using hfield
  | false => simp [Config.uncommented, hparent]

theorem keptLines_serialField (config : Config) {indent : Indent} (hindent : indent.Spaced) :
    keptLines (serialField config indent) = keptLines (serialField config.uncommented indent) :=
  keptLines_documented (.cons (isComment_shortDoc hindent (by decide)) .nil) _ _

theorem keptLines_constructorCode (hconfig : config.SingleLine) (name : String)
    (fields : List Field) (kind : ConstructorKind) :
    keptLines (constructorCode config name fields kind) =
      keptLines (constructorCode config.uncommented name fields kind) :=
  keptLines_documented (onlyComments_constructorDoc hconfig (spaced_ofLevel ..) fields kind) _ _

theorem keptLines_childlessConstructorCode (config : Config) (name : String) :
    keptLines (childlessConstructorCode config name) =
      keptLines (childlessConstructorCode config.uncommented name) :=
  keptLines_documented (onlyComments_childlessDoc (spaced_ofLevel ..)) _ _

theorem keptLines_constructors (hconfig : config.SingleLine) (nodeType : NodeType) :
    keptLines (constructors config nodeType) =
      keptLines (constructors config.uncommented nodeType) := by
  unfold constructors
  cases nodeType.fields? with
  | none => exact keptLines_childlessConstructorCode config nodeType.name
  | some fields =>
      have hfull := keptLines_constructorCode hconfig nodeType.name fields .full
      have hinitializing := keptLines_constructorCode hconfig nodeType.name fields .initializing
      cases nodeType.needsInitializing with
      | true => exact keptLines_append_congr hfull hinitializing
      | false => exact keptLines_append_congr hfull rfl

/-- Declarations of fields are kept without the comments on them. -/
theorem keptLines_fieldDeclarations {indent : Indent} (hindent : indent.Spaced)
    (hcomments : ∀ comment ∈ comments, Text.SingleLine comment.text)
    {annotations : Option Annotations}
    (hfrom : ∀ known, annotations = some known → known.From comments) (i : Nat)
    (fields : List Field) :
    keptLines (fieldDeclarations indent annotations i fields) =
      keptLines (fieldDeclarations indent none i fields) := by
  induction fields generalizing i with
  | nil => rfl
  | cons field fields ih =>
      -- On the other side, there are no comments on the field, and so no lines for them.
      rw [fieldDeclarations, List.append_assoc, keptLines_append,
        (onlyComments_fieldDocAt hindent hfrom i).keptLines hcomments, List.nil_append]
      exact keptLines_append_congr rfl (ih (i + 1))

theorem keptLines_declarationCode (hconfig : config.SingleLine) (nodeType : NodeType)
    (hcomments : ∀ comment ∈ comments, Text.SingleLine comment.text)
    {annotations : Option Annotations}
    (hfrom : ∀ known, annotations = some known → known.From comments) :
    keptLines (declarationCode config nodeType annotations) =
      keptLines (declarationCode config.uncommented nodeType none) := by
  have hindent := spaced_ofLevel config.indentAmount 1
  have hfields := keptLines_fieldDeclarations hindent hcomments hfrom 0 nodeType.fields
  refine keptLines_append_congr (keptLines_append_congr (keptLines_append_congr
    (keptLines_append_congr ?_ ?_) ?_) ?_) ?_
  · exact keptLines_cons_congr _ (keptLines_cons_congr _ hfields)
  · exact keptLines_parentField config hindent
  · exact keptLines_serialField config hindent
  · exact keptLines_constructors hconfig nodeType
  · exact keptLines_dispatchCode hconfig

theorem keptLines_supportCode (hconfig : config.SingleLine) (support : SupportClass) :
    keptLines (support.code config) = keptLines (support.code config.uncommented) := by
  have hindent := spaced_ofLevel config.indentAmount 1
  have hdocs : ∀ field ∈ support.publicFields config, Text.SingleLine field.doc := by
    cases support <;> simp +decide [SupportClass.publicFields]
  have hfields : keptLines (support.fieldsCode config (.ofLevel config.indentAmount 1)) =
      keptLines (support.fieldsCode config.uncommented (.ofLevel config.indentAmount 1)) :=
    keptLines_flatMap_congr fun field hfield =>
      keptLines_documented (.cons (isComment_shortDoc hindent (hdocs field hfield)) .nil) _ _
  rw [SupportClass.code, SupportClass.code]
  refine keptLines_append_congr (keptLines_append_congr (keptLines_append_congr
    (keptLines_append_congr (keptLines_append_congr rfl ?_) ?_) ?_) ?_) ?_
  · exact keptLines_cons_congr _ (keptLines_cons_congr _ hfields)
  · exact keptLines_parentField config hindent
  · exact keptLines_serialField config hindent
  · cases support <;> rfl
  · exact keptLines_dispatchCode hconfig

end Classes

/-! ## What they change of the visits of a node type -/

section Visits

variable {config : Config} {comments : List Comment} {indent : Indent}

/-- Of the visits of fields, their inline comments are not kept. -/
theorem keptLines_fieldVisits (config : Config) (hindent : indent.Spaced)
    (hcomments : ∀ comment ∈ comments, Text.SingleLine comment.text)
    {known : Option Annotations}
    (hfrom : ∀ annotations, known = some annotations → annotations.From comments) (i : Nat)
    {fields : List Field} (hnames : ∀ field ∈ fields, Text.SingleLine field.name) :
    keptLines (fieldVisits config indent known i fields) =
      keptLines (fieldVisits config.uncommented indent none i fields) := by
  induction fields generalizing i with
  | nil => rfl
  | cons field fields ih =>
      obtain ⟨hname, hrest⟩ := List.forall_mem_cons.1 hnames
      have hinline := onlyComments_inlineComments hindent config i hname hfrom
      rw [fieldVisits, List.append_assoc, keptLines_append, hinline.keptLines hcomments,
        List.nil_append]
      exact keptLines_append_congr rfl (keptLines_cons_congr _ (ih (i + 1) hrest))

theorem keptLines_supportVisitDoc (hconfig : config.SingleLine) (flavor : Flavor) {node : String}
    (hnode : node ∈ config.supportNames) :
    keptLines (flavor.supportVisitDoc config (.ofLevel config.indentAmount 1) node) = [] :=
  (onlyComments_supportVisitDoc hconfig (spaced_ofLevel ..) flavor hnode).keptLines
    (List.forall_mem_nil _)

theorem keptLines_interfaceAround (hconfig : config.SingleLine) (flavor : Flavor)
    {one two : Code} (h : keptLines one = keptLines two) :
    keptLines (interfaceAround config flavor one) =
      keptLines (interfaceAround config.uncommented flavor two) := by
  have hsupports : keptLines (config.supportNames.flatMap fun node =>
        flavor.supportVisitDoc config (.ofLevel config.indentAmount 1) node ++
          flavor.visitDeclaration config (.ofLevel config.indentAmount 1) node) =
      keptLines (config.uncommented.supportNames.flatMap fun node =>
        flavor.supportVisitDoc config.uncommented (.ofLevel config.indentAmount 1) node ++
          flavor.visitDeclaration config.uncommented (.ofLevel config.indentAmount 1) node) :=
    keptLines_flatMap_congr fun node hnode =>
      keptLines_append_congr
        (keptLines_supportVisitDoc hconfig flavor hnode) rfl
  refine keptLines_append_congr (keptLines_append_congr ?_ h) rfl
  exact keptLines_cons_congr _ (keptLines_cons_congr _ hsupports)

theorem keptLines_depthFirstAround (hconfig : config.SingleLine) {one two : Code}
    (h : keptLines one = keptLines two) :
    keptLines (depthFirstAround config one) =
      keptLines (depthFirstAround config.uncommented two) := by
  have hsupports : keptLines (config.supportNames.flatMap fun node =>
        Flavor.void.supportVisitDoc config (.ofLevel config.indentAmount 1) node ++
          depthFirstMethod config (.ofLevel config.indentAmount 1) node
            (supportVisitBody config node)) =
      keptLines (config.uncommented.supportNames.flatMap fun node =>
        Flavor.void.supportVisitDoc config.uncommented (.ofLevel config.indentAmount 1) node ++
          depthFirstMethod config.uncommented (.ofLevel config.indentAmount 1) node
            (supportVisitBody config.uncommented node)) :=
    keptLines_flatMap_congr fun node hnode =>
      keptLines_append_congr
        (keptLines_supportVisitDoc hconfig .void hnode) rfl
  refine keptLines_append_congr (keptLines_append_congr ?_ h) rfl
  exact keptLines_cons_congr _ (keptLines_cons_congr _ hsupports)

end Visits

/-! ## What they change of an output -/

section Output

variable {config : Config} {comments : List Comment} {production : Production}

theorem lower_uncommented (config : Config) :
    NodeType.lower config.uncommented = NodeType.lower config := lower_congr rfl rfl

/-- Two shares differ in comment lines only. -/
structure SameKept (one two : Share) : Prop where
  nodeType : one.nodeType.withoutComments = two.nodeType.withoutComments
  declaration : ∀ flavor, keptLines (one.declaration flavor) = keptLines (two.declaration flavor)
  method : keptLines one.method = keptLines two.method

theorem sameKept_share (hconfig : config.SingleLine)
    (hcomments : ∀ comment ∈ comments, Text.SingleLine comment.text)
    (hname : Text.SingleLine (config.typeName production.name)) :
    SameKept (share config comments production)
      (share config.uncommented comments production) := by
  have hnode : Text.SingleLine (NodeType.lower config production).name := by
    rwa [name_lower]
  have hfrom := from_annotateIf ⟨comments, config⟩
  have hdoc := fun flavor bare =>
    (onlyComments_visitDoc config ⟨comments, config⟩ (spaced_ofLevel config.indentAmount 1)
      flavor bare hnode).keptLines hcomments
  rw [share, share, lower_uncommented]
  refine ⟨?_, fun flavor => ?_, ?_⟩
  · refine congrArg (CompilationUnit.mk _) (withoutCommentLines_congr ?_)
    exact keptLines_declarationCode hconfig _ hcomments (hfrom _ _)
  · exact keptLines_append_congr (hdoc flavor false) rfl
  · have hbody : keptLines (fieldVisits config ((Indent.ofLevel config.indentAmount 1).move 1)
        (Commentary.annotateIf ⟨comments, config⟩ config.inlineAcceptMethods
          (NodeType.lower config production).production) 0
        (NodeType.lower config production).fields) =
        keptLines (fieldVisits config.uncommented
          ((Indent.ofLevel config.indentAmount 1).move 1) none 0
          (NodeType.lower config production).fields) :=
      keptLines_fieldVisits config (spaced_move _ 1) hcomments (hfrom _ _) 0
        fun _ hfield => singleLine_name_of_mem_fields hfield
    refine keptLines_append_congr (hdoc .void config.inlineAcceptMethods) ?_
    refine keptLines_cons_congr _ ?_
    exact keptLines_append_congr (keptLines_cons_congr _ hbody) rfl

theorem withoutComments_interfaceUnit (hconfig : config.SingleLine) {one two : List Share}
    (flavor : Flavor) (h : keptLines (one.flatMap (·.declaration flavor)) =
      keptLines (two.flatMap (·.declaration flavor))) :
    (interfaceUnit config one flavor).withoutComments =
      (interfaceUnit config.uncommented two flavor).withoutComments := by
  have htext := withoutCommentLines_congr (keptLines_interfaceAround hconfig flavor h)
  have hname : flavor.name config.uncommented = flavor.name config := by cases flavor <;> rfl
  simp only [interfaceUnit, CompilationUnit.withoutComments, htext, hname]

theorem withoutComments_depthFirstUnit (hconfig : config.SingleLine) {one two : List Share}
    (h : keptLines (one.flatMap Share.method) = keptLines (two.flatMap Share.method)) :
    (depthFirstUnit config one).withoutComments =
      (depthFirstUnit config.uncommented two).withoutComments := by
  have htext := withoutCommentLines_congr (keptLines_depthFirstAround hconfig h)
  simp only [depthFirstUnit, CompilationUnit.withoutComments, htext]

theorem withoutComments_supportUnits (hconfig : config.SingleLine) :
    (supportUnits config).map CompilationUnit.withoutComments =
      (supportUnits config.uncommented).map CompilationUnit.withoutComments := by
  simp only [supportUnits, List.map_map]
  refine List.map_congr_left fun support _ => ?_
  have htext := withoutCommentLines_congr (keptLines_supportCode hconfig support)
  have hname : support.name config.uncommented = support.name config := by cases support <;> rfl
  simp only [Function.comp_apply, CompilationUnit.withoutComments, htext, hname]

/-- The node interface has no comments. -/
theorem nodeInterfaceUnit_uncommented (config : Config) :
    nodeInterfaceUnit config.uncommented = nodeInterfaceUnit config := rfl

/-- Without comment lines, an output is the one that the settings without comments give. -/
theorem withoutComments_assemble (hconfig : config.SingleLine)
    (hcomments : ∀ comment ∈ comments, Text.SingleLine comment.text)
    {productions : List Production}
    (hnames : ∀ production ∈ productions, Text.SingleLine (config.typeName production.name)) :
    (assemble config (productions.map (share config comments))).withoutComments =
      (assemble config.uncommented
        (productions.map (share config.uncommented comments))).withoutComments := by
  have hshares := fun production hproduction =>
    sameKept_share hconfig hcomments (hnames production hproduction)
  have hinterfaces : ∀ flavor,
      (interfaceUnit config (productions.map (share config comments)) flavor).withoutComments =
        (interfaceUnit config.uncommented (productions.map (share config.uncommented comments))
          flavor).withoutComments := by
    intro flavor
    refine withoutComments_interfaceUnit hconfig flavor ?_
    rw [List.flatMap_map, List.flatMap_map]
    exact keptLines_flatMap_congr fun production hproduction =>
      (hshares production hproduction).declaration flavor
  have hdepthFirst :
      (depthFirstUnit config (productions.map (share config comments))).withoutComments =
        (depthFirstUnit config.uncommented
          (productions.map (share config.uncommented comments))).withoutComments := by
    refine withoutComments_depthFirstUnit hconfig ?_
    rw [List.flatMap_map, List.flatMap_map]
    exact keptLines_flatMap_congr fun production hproduction =>
      (hshares production hproduction).method
  have hnodeTypes : (productions.map (share config comments)).map
        (fun share => share.nodeType.withoutComments) =
      (productions.map (share config.uncommented comments)).map
        (fun share => share.nodeType.withoutComments) := by
    rw [List.map_map, List.map_map]
    exact List.map_congr_left fun production hproduction =>
      (hshares production hproduction).nodeType
  rw [Output.withoutComments, Output.withoutComments, nodeInterface_assemble,
    nodeInterface_assemble, supportClasses_assemble, supportClasses_assemble,
    withoutComments_supportUnits hconfig, nodeInterfaceUnit_uncommented]
  simp only [assemble, List.map_append, List.map_map, Function.comp_def, hinterfaces, hdepthFirst,
    List.map_cons, List.map_nil] at hnodeTypes ⊢
  rw [hnodeTypes]

theorem foundProblem?_uncommented (config : Config) (grammar : Grammar) :
    foundProblem? config.uncommented grammar = foundProblem? config grammar :=
  foundProblem?_congr (lower_uncommented config) rfl grammar

/-- **The comment options change no line of code**: a pass fails in the same way whatever they
are, or it succeeds with the same units but for comment lines. What is asked of the comments holds
for every grammar that was read from a text. -/
theorem generate_withoutComments (grammar : Grammar) (one two : Config)
    (hcomments : ∀ comment ∈ grammar.comments, Text.SingleLine comment.text)
    (hone : one.SingleLine) (htwo : two.SingleLine) (hsame : one.uncommented = two.uncommented) :
    ((∃ e diagnostics, (generate one grammar).value = ⟨.error e, diagnostics⟩ ∧
        (generate two grammar).value = ⟨.error e, diagnostics⟩) ∨
      ∃ first second, (generate one grammar).value.outcome = .ok first ∧
        (generate two grammar).value.outcome = .ok second ∧
        first.withoutComments = second.withoutComments) ∧
    ∀ text read, Grammar.ofText text = .ok read →
      ∀ comment ∈ read.comments, Text.SingleLine comment.text := by
  refine ⟨?_, fun text read hread => singleLine_of_ofText hread⟩
  -- Comments play no part in what can be wrong, so that both passes fail alike or none does.
  have hproblem : foundProblem? one grammar = foundProblem? two grammar := by
    rw [← foundProblem?_uncommented, hsame, foundProblem?_uncommented]
  cases hfound : foundProblem? two grammar with
  | some problem =>
      obtain ⟨e, span⟩ := problem
      exact Or.inl ⟨_, _, value_generate_of_some (hproblem.trans hfound),
        value_generate_of_some hfound⟩
  | none =>
      have hnames : ∀ {config : Config}, foundProblem? config grammar = none →
          ∀ production ∈ grammar.productions,
            Text.SingleLine (config.typeName production.name) :=
        fun hnone production hproduction => singleLine_of_isIdentifier
          ((firstProblem?_eq_none.1 hnone).1.identifiers production hproduction)
      -- Both outputs are compared with the one that the same settings without comments give.
      refine Or.inr ⟨_, _, outcome_of_foundProblem? (hproblem.trans hfound),
        outcome_of_foundProblem? hfound, ?_⟩
      rw [withoutComments_assemble hone hcomments (hnames (hproblem.trans hfound)),
        withoutComments_assemble htwo hcomments (hnames hfound), hsame]

/-- All comments wanted, and none. -/
theorem generate_withoutComments_documented :
    ∃ (grammar : Grammar) (plain documented : Config) (first second : Output),
      grammar = ⟨[⟨"A", ⟨0, 20⟩, .choices [[.terminal ⟨4, 7⟩ "x" (some "int i;\ni++;"),
          .composite ⟨8, 20⟩ .optional [[.nonTerminal ⟨9, 10⟩ "A" none]] none]]⟩],
        [⟨⟨11, 17⟩, " of A"⟩]⟩ ∧
      plain = { parentPointer := true } ∧
      documented = { plain with
        javadocComments := true, debugComments := true, inlineAcceptMethods := true } ∧
      (∀ comment ∈ grammar.comments, Text.SingleLine comment.text) ∧
      plain.SingleLine ∧ documented.SingleLine ∧ plain.uncommented = documented.uncommented ∧
      (generate plain grammar).value.outcome = .ok first ∧
      (generate documented grammar).value.outcome = .ok second ∧
      first.withoutComments = second.withoutComments := by
  obtain ⟨⟨e, diagnostics, hfails, -⟩ | ⟨first, second, hfirst, hsecond, hkept⟩, -⟩ :=
    generate_withoutComments
      ⟨[⟨"A", ⟨0, 20⟩, .choices [[.terminal ⟨4, 7⟩ "x" (some "int i;\ni++;"),
          .composite ⟨8, 20⟩ .optional [[.nonTerminal ⟨9, 10⟩ "A" none]] none]]⟩],
        [⟨⟨11, 17⟩, " of A"⟩]⟩
      { parentPointer := true }
      { parentPointer := true,
        javadocComments := true, debugComments := true, inlineAcceptMethods := true }
      (by decide) (by decide) (by decide) rfl
  · have hsucceeds := congrArg Generation.outcome hfails
    rw [outcome_of_foundProblem? (by decide)] at hsucceeds
    cases hsucceeds
  · exact ⟨_, _, _, first, second, rfl, rfl, rfl, by decide, by decide, by decide, rfl, hfirst,
      hsecond, hkept⟩

end Output

end TreeSmith

import TreeSmith.Proofs.Code.Closure
import TreeSmith.Proofs.Code.Comments
import TreeSmith.Proofs.Code.DocBlocks

/-!
# TreeSmith.Proofs.Code.Documentation

**All that is written for node types is documented code** (`Documented`): every line is inside a
documentation block, or it is code that starts none. The generator's own words have no end of a
comment in them if the settings have none (`Config.Unclosed`), and in the documentation of fields
and of visits the comments of a grammar are quoted.

The user's code in the visits of fields could be anything. It is asked of these fields that they
have none.
-/

namespace TreeSmith

/-! ## Settings without an end of a comment -/

/-- All texts among the settings. -/
def Config.texts (config : Config) : List String :=
  [config.namePrefix, config.nameSuffix, config.nodeInterface, config.nodeToken,
    config.retArguVisitor, config.retVisitor, config.voidArguVisitor, config.voidVisitor,
    config.retType, config.arguType] ++ config.nodesSuperclass.toList ++
    config.nodesPackage.toList ++ config.visitorPackage.toList

/-- No text among the settings has an end of a comment in it. -/
def Config.Unclosed (config : Config) : Prop :=
  ∀ text ∈ config.texts, Text.Unclosed text

instance (config : Config) : Decidable config.Unclosed :=
  inferInstanceAs (Decidable (∀ text ∈ config.texts, Text.Unclosed text))

namespace Config.Unclosed

variable {config : Config}

theorem name (h : config.Unclosed) (flavor : Flavor) : Text.Unclosed (flavor.name config) := by
  refine h _ ?_
  cases flavor <;> simp [Flavor.name, Config.texts]

theorem retType (h : config.Unclosed) : Text.Unclosed config.retType :=
  h _ (by simp [Config.texts])

theorem arguType (h : config.Unclosed) : Text.Unclosed config.arguType :=
  h _ (by simp [Config.texts])

theorem nodeToken (h : config.Unclosed) : Text.Unclosed config.nodeToken :=
  h _ (by simp [Config.texts])

theorem supportName (h : config.Unclosed) {node : String} (hnode : node ∈ config.supportNames) :
    Text.Unclosed node :=
  forall_mem_supportNames (by decide) h.nodeToken node hnode

end Config.Unclosed

/-! ## Documentation -/

section Documentation

variable {commentary : Commentary} {comments : List Comment} {config : Config} {indent : Indent}

/-- The name of an owner has no star in it. -/
theorem not_mem_star_label (owner : Owner) : '*' ∉ owner.label.toList := by
  cases owner with
  | field i => simpa [Owner.label] using Text.not_mem_star_repr i
  | sub k => simpa [Owner.label] using Text.not_mem_star_repr k

/-- Neither has a span. -/
theorem not_mem_star_render (span : Span) : '*' ∉ span.render.toList := by
  have hstart : '*' ∉ (toString span.start).toList := Text.not_mem_star_repr span.start
  have hstop : '*' ∉ (toString span.stop).toList := Text.not_mem_star_repr span.stop
  simp only [Span.render, String.toList_append, List.mem_append, not_or]
  exact ⟨⟨hstart, by decide⟩, hstop⟩

/-- What is quoted from a comment, with a note where it was written. -/
theorem sound_quoted {owner : Owner} {comment : Comment} (h : comment ∈ commentary.comments) :
    (DocLine.quoted comment ((commentary.line owner comment).debug.getD "")).Sound
      commentary.comments := by
  have hnote : '*' ∉ (" // " ++ owner.label ++ " @" ++ comment.span.render).toList := by
    simp only [String.toList_append, List.mem_append, not_or]
    exact ⟨⟨⟨by decide, not_mem_star_label owner⟩, by decide⟩, not_mem_star_render comment.span⟩
  rw [Commentary.line]
  cases commentary.config.debugComments with
  | false => exact ⟨h, show Text.Unclosed "" by decide, by simp⟩
  | true => exact ⟨h, Text.not_closes_of_not_mem_star hnote, by simp⟩

/-- The lines of a block quote the comments that they show. -/
theorem exists_docLines (indent : Indent) (block : CommentBlock)
    (h : ∀ line ∈ block, commentary.Shows line) :
    ∃ lines : List DocLine, (block.map fun line =>
        indent.docLine (line.bare ++ line.debug.getD "")) = lines.map (DocLine.code indent) ∧
      ∀ line ∈ lines, line.Sound commentary.comments := by
  induction block with
  | nil => exact ⟨[], rfl, List.forall_mem_nil _⟩
  | cons line block ih =>
      obtain ⟨⟨owner, comment, hcomment, rfl⟩, hrest⟩ := List.forall_mem_cons.1 h
      obtain ⟨lines, hlines, hsound⟩ := ih hrest
      refine ⟨.quoted comment ((commentary.line owner comment).debug.getD "") :: lines, ?_,
        List.forall_mem_cons.2 ⟨sound_quoted hcomment, hsound⟩⟩
      rw [List.map_cons, hlines]
      rfl

theorem documented_docAround (hindent : indent.Spaced) {lines : List DocLine}
    (h : ∀ line ∈ lines, line.Sound comments) :
    Documented comments (indent.docAround (lines.map (DocLine.code indent))) := by
  have hsound : (DocBlock.long indent lines).Sound comments := ⟨hindent, h⟩
  exact .block hsound

theorem documented_doc (hindent : indent.Spaced) {summary : String} {tags : List String}
    (hsummary : Text.Unclosed summary) (htags : ∀ tag ∈ tags, Text.Unclosed tag) :
    Documented comments (indent.doc summary tags) := by
  have hcode : indent.doc summary tags = indent.docAround
      ((DocLine.words summary :: .gap :: tags.map .words).map (DocLine.code indent)) := by
    rw [Indent.doc, List.map_cons, List.map_cons, List.map_map]
    rfl
  rw [hcode]
  refine documented_docAround hindent (List.forall_mem_cons.2 ⟨hsummary,
    List.forall_mem_cons.2 ⟨trivial, List.forall_mem_map.2 htags⟩⟩)

theorem documented_shortDoc (hindent : indent.Spaced) {text : String}
    (htext : Text.Unclosed text) : Documented comments [indent.shortDoc text] := by
  have hsound : (DocBlock.short indent text).Sound comments := ⟨hindent, htext⟩
  exact .block hsound

theorem documented_acceptDoc (hconfig : config.Unclosed) (hindent : indent.Spaced)
    (flavor : Flavor) : Documented comments (flavor.acceptDoc config indent) := by
  refine documented_doc hindent ?_ ?_
  · simp +decide [hconfig.name flavor]
  · have hreturn : Text.Unclosed
        ("@param <" ++ config.retType ++ "> - the user return type") := by
      simp +decide [hconfig.retType]
    have hargument : Text.Unclosed
        ("@param <" ++ config.arguType ++ "> - the user argument type") := by
      simp +decide [hconfig.arguType]
    have hvariadic : Text.Unclosed ("@param argu - " ++
        if config.variadicArgs then "the user arguments" else "a user chosen argument") := by
      cases config.variadicArgs <;> decide
    have hresult : Text.Unclosed "@return a user chosen return information" := by decide
    simp only [List.forall_mem_append]
    exact ⟨⟨⟨⟨forall_mem_if hreturn _, forall_mem_if hargument _⟩,
      List.forall_mem_singleton.2 (by decide)⟩, forall_mem_if hvariadic _⟩,
      forall_mem_if hresult _⟩

/-- The documentation of a field quotes the comments of its block. -/
theorem documented_fieldDoc (hindent : indent.Spaced) {block : CommentBlock}
    (h : ∀ line ∈ block, commentary.Shows line) :
    Documented commentary.comments (fieldDoc indent block) := by
  obtain ⟨lines, hlines, hsound⟩ := exists_docLines indent block h
  rw [fieldDoc, hlines]
  exact (documented_docAround hindent hsound).codeIf _

theorem documented_visitDocAround (hindent : indent.Spaced) (config : Config) (flavor : Flavor)
    {node : String} (hnode : Text.Unclosed node) {lines : List DocLine}
    (hlines : ∀ line ∈ lines, line.Sound comments) :
    Documented comments
      (flavor.visitDocAround config indent node (lines.map (DocLine.code indent))) := by
  let argument : List DocLine := if flavor.takesArgument then
    [.words ("@param argu - " ++
      if config.variadicArgs then "the user arguments" else "the user argument")] else []
  let result : List DocLine := if flavor.returns then
    [.words "@return the user return information"] else []
  have hcode : flavor.visitDocAround config indent node (lines.map (DocLine.code indent)) =
      indent.docAround ((DocLine.words ("Visits a \x7b@link " ++ node ++ "\x7d node.") :: lines ++
        [DocLine.gap, .words "@param n - the node to visit"] ++ argument ++ result).map
          (DocLine.code indent)) := by
    cases flavor <;> simp [Flavor.visitDocAround, argument, result, DocLine.code,
      Flavor.takesArgument, Flavor.returns]
  have hlink : Text.Unclosed ("Visits a \x7b@link " ++ node ++ "\x7d node.") := by
    simp +decide [hnode]
  have hargument : ∀ line ∈ argument, line.Sound comments := by
    have hnote : Text.Unclosed ("@param argu - " ++
        if config.variadicArgs then "the user arguments" else "the user argument") := by
      cases config.variadicArgs <;> decide
    cases flavor <;> simp [argument, Flavor.takesArgument, DocLine.Sound, hnote]
  have hresult : ∀ line ∈ result, line.Sound comments := by
    have hnote : Text.Unclosed "@return the user return information" := by decide
    cases flavor <;> simp [result, Flavor.returns, DocLine.Sound, hnote]
  have hnode : ∀ line ∈ [DocLine.gap, .words "@param n - the node to visit"],
      line.Sound comments :=
    List.forall_mem_cons.2 ⟨trivial, List.forall_mem_singleton.2
      (show Text.Unclosed "@param n - the node to visit" by decide)⟩
  rw [hcode]
  refine documented_docAround hindent ?_
  simp only [List.forall_mem_append]
  exact ⟨⟨⟨List.forall_mem_cons.2 ⟨hlink, hlines⟩, hnode⟩, hargument⟩, hresult⟩

theorem documented_supportVisitDoc (hconfig : config.Unclosed) (hindent : indent.Spaced)
    (flavor : Flavor) {node : String} (hnode : node ∈ config.supportNames) :
    Documented comments (flavor.supportVisitDoc config indent node) :=
  (documented_visitDocAround hindent config flavor (hconfig.supportName hnode)
    (List.forall_mem_nil _)).codeIf _

/-- The documentation of a visit quotes the comments of all fields. -/
theorem documented_visitDoc (config : Config) (commentary : Commentary) (hindent : indent.Spaced)
    (flavor : Flavor) (bare : Bool) {nodeType : NodeType} (hname : Text.Unclosed nodeType.name) :
    Documented commentary.comments
      (commentary.visitDoc config flavor indent bare nodeType) := by
  have hlines : ∃ lines : List DocLine,
      codeIf (!bare) (commentary.fieldDocs indent nodeType.production) =
        lines.map (DocLine.code indent) ∧ ∀ line ∈ lines, line.Sound commentary.comments := by
    cases bare with
    | true => exact ⟨[], rfl, List.forall_mem_nil _⟩
    | false =>
        cases hfound : commentary.annotate nodeType.production with
        | none => exact ⟨[], by simp [Commentary.fieldDocs, hfound], List.forall_mem_nil _⟩
        | some known =>
            have hshows : ∀ line ∈ known.fields.flatten, commentary.Shows line := by
              intro line hline
              obtain ⟨block, hblock, hline⟩ := List.mem_flatten.1 hline
              exact (shows_annotate hfound).1 block hblock line hline
            obtain ⟨lines, hcode, hsound⟩ := exists_docLines indent known.fields.flatten hshows
            refine ⟨lines, ?_, hsound⟩
            rw [Commentary.fieldDocs, hfound]
            exact hcode
  obtain ⟨lines, hcode, hsound⟩ := hlines
  rw [Commentary.visitDoc, hcode]
  exact (documented_visitDocAround hindent config flavor hname hsound).codeIf _

end Documentation

/-! ## Classes -/

section Classes

variable {comments : List Comment} {config : Config} {indent : Indent}

theorem documented_closing (hindent : indent.Spaced) : Documented comments [indent.closing] :=
  .cons (plain_line hindent rfl (by decide)) .nil

/-- A method that overrides another is documented in front of it, or in its body. -/
theorem documented_override (hindent : indent.Spaced) (signature : String) {body : Code}
    (hbody : Documented comments body) :
    Documented comments
      (indent.line "@Override" :: indent.member ("public " ++ signature) body) :=
  .cons (plain_line hindent rfl (by decide))
    (documented_member hindent (Text.head?_append rfl) (by decide) hbody)

theorem documented_acceptMethod (hconfig : config.Unclosed) (flavor : Flavor) :
    Documented comments (flavor.acceptMethod config) := by
  have hforward : ((Indent.ofLevel config.indentAmount 2).line flavor.forward).Plain := by
    cases flavor <;> exact plain_line (spaced_ofLevel ..) rfl (by decide)
  exact ((documented_acceptDoc hconfig (spaced_ofLevel ..) flavor).codeIf _).append
    (documented_override (spaced_ofLevel ..) _ (.cons hforward .nil))

theorem documented_parentAccessors (config : Config) :
    Documented comments (parentAccessors config) := by
  have hindent := spaced_ofLevel config.indentAmount 1
  have hbody := spaced_ofLevel config.indentAmount 2
  have hset : Documented comments ((Indent.ofLevel config.indentAmount 1).doc
      "Sets the parent node." ["@param n - the parent node"]) :=
    documented_doc hindent (by decide) (by decide)
  have hget : Documented comments ((Indent.ofLevel config.indentAmount 1).doc
      "Gets the parent node." ["@return the parent node"]) :=
    documented_doc hindent (by decide) (by decide)
  refine .append (.append (.append (hset.codeIf _) ?_) (hget.codeIf _)) ?_
  · exact documented_override hindent _ (.cons (plain_line hbody rfl (by decide)) .nil)
  · exact documented_override hindent _ (.cons (plain_line hbody rfl (by decide)) .nil)

theorem documented_dispatchCode (hconfig : config.Unclosed) :
    Documented comments (dispatchCode config) :=
  ((Documented.flatMap fun flavor _ => documented_acceptMethod hconfig flavor).append
    ((documented_parentAccessors config).codeIf _)).append (documented_closing (spaced_ofLevel ..))

theorem documented_parentField (config : Config) (hindent : indent.Spaced) :
    Documented comments (parentField config indent) := by
  have hfield : Documented comments
      (indent.paragraph ("private " ++ config.nodeInterface ++ " parent;")) :=
    documented_paragraph hindent (Text.head?_append (Text.head?_append rfl)) (by decide)
  exact (((documented_shortDoc hindent (by decide)).codeIf _).append hfield).codeIf _

theorem documented_serialField (config : Config) (hindent : indent.Spaced) :
    Documented comments (serialField config indent) := by
  have hfield : Documented comments (indent.paragraph
      ("private static final long serialVersionUID = " ++ toString config.serialUid ++ "L;")) :=
    documented_paragraph hindent (Text.head?_append (Text.head?_append rfl)) (by decide)
  exact ((documented_shortDoc hindent (by decide)).codeIf _).append hfield

/-- The fields of node types are named with a letter in front of their number. -/
theorem head?_name_of_mem_fields {production : Production} {field : Field}
    (h : field ∈ (NodeType.lower config production).fields) :
    field.name.toList.head? = some 'f' := by
  rcases mem_fields_lower h with rfl | ⟨-, part, i, -, -, rfl⟩
  · rfl
  · exact Text.head?_append rfl

/-- There is no documentation where a child is stored in its field. -/
theorem documented_assignment (config : Config) {assignment : Assignment}
    (hname : assignment.field.toList.head? = some 'f') :
    Documented comments (assignment.code config) := by
  have hbody := spaced_ofLevel config.indentAmount 2
  have hstore : ((Indent.ofLevel config.indentAmount 2).line
      (assignment.field ++ " = " ++ assignment.value ++ ";")).Plain :=
    plain_line hbody (Text.head?_append (Text.head?_append (Text.head?_append hname))) (by decide)
  have hguard : ((Indent.ofLevel config.indentAmount 2).line
      ("if (" ++ assignment.field ++ " != null)")).Plain :=
    plain_line hbody (Text.head?_append (Text.head?_append rfl)) (by decide)
  have hadopt : ((Indent.ofLevel config.indentAmount 3).line
      (assignment.field ++ ".setParent(this);")).Plain :=
    plain_line (spaced_ofLevel ..) (Text.head?_append hname) (by decide)
  exact .cons hstore (Documented.codeIf (.cons hguard (.cons hadopt .nil)) _)

theorem documented_constructor (config : Config) (name : String) {constructor : Constructor}
    (hdoc : Documented comments constructor.doc)
    (hnames : ∀ assignment ∈ constructor.assigned,
      assignment.field.toList.head? = some 'f') :
    Documented comments (constructor.code config name) := by
  refine hdoc.append (documented_member (spaced_ofLevel ..)
    (Text.head?_append (Text.head?_append (Text.head?_append (Text.head?_append rfl))))
    (by decide) ?_)
  exact .flatMap fun assignment hassignment =>
    documented_assignment config (hnames assignment hassignment)

/-- The documentation of a constructor says what its parameters are. -/
theorem documented_constructorDoc (hconfig : config.Unclosed) (fields : List Field)
    (kind : ConstructorKind) :
    Documented comments (Constructor.ofFields config fields kind).doc := by
  have hsummary : Text.Unclosed (constructorSummary config kind fields.length) := by
    unfold constructorSummary
    split
    · split <;> simp +decide [hconfig.nodeToken]
    · decide
    · decide
  have htags : ∀ tag ∈ (List.range (parameters kind 0 fields).length).map fun n =>
      "@param " ++ parameterName n ++ " - " ++ parameterNote kind fields.length n,
      Text.Unclosed tag := by
    refine List.forall_mem_map.2 fun n _ => ?_
    have hnote : Text.Unclosed (parameterNote kind fields.length n) ∧
        (parameterNote kind fields.length n).toList.head? ≠ some '/' := by
      unfold parameterNote
      split <;> decide
    simp +decide [parameterName, hnote]
  exact (documented_doc (spaced_ofLevel ..) hsummary htags).codeIf _

theorem documented_childlessDoc (config : Config) :
    Documented comments (Constructor.childless config).doc := by
  have hline : (DocLine.words "Constructs the node (which has no child).").Sound comments :=
    show Text.Unclosed _ by decide
  exact (documented_docAround (spaced_ofLevel ..) (List.forall_mem_singleton.2 hline)).codeIf _

theorem documented_constructors (hconfig : config.Unclosed) (production : Production) :
    Documented comments (constructors config (NodeType.lower config production)) := by
  rw [constructors_eq]
  refine .flatMap fun constructor hconstructor => ?_
  rcases mem_constructorsOf hconstructor with ⟨-, rfl⟩ | ⟨kind, rfl⟩
  · exact documented_constructor config _ (documented_childlessDoc config) (List.forall_mem_nil _)
  · refine documented_constructor config _ (documented_constructorDoc hconfig _ kind)
      fun assignment hassignment => ?_
    -- Assignments are made to the fields of the node type, whose names are known.
    have hname : assignment.field ∈ (NodeType.lower config production).fields.map Field.name := by
      rw [← field_assignments kind 0]
      exact List.mem_map_of_mem hassignment
    obtain ⟨field, hfield, heq⟩ := List.mem_map.1 hname
    rw [← heq]
    exact head?_name_of_mem_fields hfield

/-- Declarations of fields are documented by the comments on them. -/
theorem documented_fieldDeclarations {commentary : Commentary} (hindent : indent.Spaced)
    {annotations : Option Annotations}
    (hshows : ∀ known, annotations = some known →
      ∀ block ∈ known.fields, ∀ line ∈ block, commentary.Shows line) (i : Nat)
    (fields : List Field) :
    Documented commentary.comments (fieldDeclarations indent annotations i fields) := by
  induction fields generalizing i with
  | nil => exact .nil
  | cons field fields ih =>
      have hdoc : Documented commentary.comments
          (fieldDoc indent ((annotations.bind (·.fields[i]?)).getD [])) := by
        refine documented_fieldDoc hindent fun line hline => ?_
        cases hblock : annotations.bind (·.fields[i]?) with
        | none => simp [hblock] at hline
        | some block =>
            obtain ⟨known, hknown, hfound⟩ := Option.bind_eq_some_iff.1 hblock
            rw [hblock] at hline
            exact hshows known hknown block (List.mem_of_getElem? hfound) line hline
      have hfield : Documented commentary.comments
          (indent.paragraph ("public " ++ field.type ++ " " ++ field.name ++ ";")) :=
        documented_paragraph hindent
          (Text.head?_append (Text.head?_append (Text.head?_append (Text.head?_append rfl))))
          (by decide)
      exact (hdoc.append hfield).append (ih (i + 1))

/-- What is shown by the comments of a production, if it is asked for them. -/
theorem shows_annotateIf {commentary : Commentary} {wanted : Bool} {production : Production}
    {known : Annotations} (h : commentary.annotateIf wanted production = some known) :
    ∀ block ∈ known.fields, ∀ line ∈ block, commentary.Shows line := by
  cases wanted with
  | true => exact (shows_annotate h).1
  | false => cases h

/-- The first blocks of a class are those of its fields. -/
theorem exists_documentedBy_declarationCode (comments : List Comment) (hconfig : config.Unclosed)
    (production : Production) {annotations : Option Annotations} {first : List DocBlock}
    (hfields : DocumentedBy (fieldDeclarations (.ofLevel config.indentAmount 1) annotations 0
      (NodeType.lower config production).fields) first) :
    ∃ rest,
      DocumentedBy (declarationCode config (NodeType.lower config production) annotations)
        (first ++ rest) ∧
      ∀ block ∈ rest, block.Sound comments := by
  have hindent := spaced_ofLevel config.indentAmount 1
  have hheading : ((Indent.ofLevel config.indentAmount 0).opening
      (classHeading config (NodeType.lower config production).name)).Plain :=
    plain_line (spaced_ofLevel ..)
      (Text.head?_append (Text.head?_append (Text.head?_append (Text.head?_append
        (Text.head?_append rfl)))))
      (by decide)
  have hrest : Documented comments
      (parentField config (.ofLevel config.indentAmount 1) ++
        serialField config (.ofLevel config.indentAmount 1) ++
        constructors config (NodeType.lower config production) ++ dispatchCode config) :=
    (((documented_parentField config hindent).append (documented_serialField config hindent)).append
      (documented_constructors hconfig production)).append (documented_dispatchCode hconfig)
  obtain ⟨rest, hblocks, hsound⟩ := hrest
  refine ⟨rest, ?_, hsound⟩
  have hclass := DocumentedBy.append (.line hheading (.line plain_emptyLine hfields)) hblocks
  simpa only [declarationCode, List.append_assoc] using hclass

/-- The class of a node type is documented all through. -/
theorem documented_declaration (hconfig : config.Unclosed) (commentary : Commentary)
    (production : Production) :
    Documented commentary.comments
      (commentary.declaration config (NodeType.lower config production)) := by
  obtain ⟨first, hfields, hfirst⟩ := documented_fieldDeclarations
    (spaced_ofLevel config.indentAmount 1) (fun _ hknown => shows_annotateIf hknown) 0 _
  obtain ⟨rest, hblocks, hrest⟩ :=
    exists_documentedBy_declarationCode commentary.comments hconfig production hfields
  exact ⟨first ++ rest, hblocks, List.forall_mem_append.2 ⟨hfirst, hrest⟩⟩

end Classes

/-! ## Visits -/

section Visits

variable {comments : List Comment} {config : Config} {indent : Indent}

/-- Code comments are no documentation. -/
theorem documented_codeComments (hindent : indent.Spaced) (config : Config)
    (extra : Option String) (block : CommentBlock) :
    Documented comments (Ask.codeComments config indent extra block) :=
  .lines <| List.forall_mem_map.2 fun line _ => by
    rw [String.append_assoc]
    exact plain_codeComment hindent _

theorem documented_inlineComments (hindent : indent.Spaced) (config : Config) (i : Nat)
    (field : Field) (known : Option Annotations) :
    Documented comments (inlineComments config indent i field known) := by
  cases known with
  | none => exact .nil
  | some known =>
      exact (documented_codeComments hindent config _ _).append
        (.flatMap fun sub _ => documented_codeComments hindent config _ sub.2.block)

/-- The user's code could be documented in any way, but here is none. -/
theorem documented_fieldVisits (hindent : indent.Spaced) (config : Config)
    (known : Option Annotations) (i : Nat) {fields : List Field}
    (hcode : ∀ field ∈ fields, field.code = none) :
    Documented comments (fieldVisits config indent known i fields) := by
  induction fields generalizing i with
  | nil => exact .nil
  | cons field fields ih =>
      obtain ⟨hnone, hrest⟩ := List.forall_mem_cons.1 hcode
      have huser : Documented comments (userCode indent field) := by
        rw [userCode, hnone]
        exact .nil
      have hvisit : (fieldVisit indent field).Plain :=
        plain_line hindent (Text.head?_append (Text.head?_append rfl)) (by decide)
      exact ((documented_inlineComments hindent config i field known).append huser).append
        (.cons hvisit (ih (i + 1) hrest))

theorem documented_visitDeclaration (hindent : indent.Spaced) (config : Config)
    (flavor : Flavor) (node : String) :
    Documented comments (flavor.visitDeclaration config indent node) :=
  documented_paragraph hindent (Text.head?_append (Text.head?_append rfl)) (by decide)

theorem documented_supportVisitBody (config : Config) (name : String) :
    Documented comments (supportVisitBody config name) := by
  have hline : ∀ (level : Nat) {text : String} {c : Char}, text.toList.head? = some c →
      c ≠ ' ' ∧ c ≠ '/' → ((Indent.ofLevel config.indentAmount level).line text).Plain :=
    fun level _ _ hhead hc => plain_line (spaced_ofLevel config.indentAmount level) hhead hc
  have heach : ("for (final " ++ config.nodeInterface ++ " e : n.nodes)" ++ " \x7b").toList.head? =
      some 'f' := Text.head?_append (Text.head?_append (Text.head?_append rfl))
  unfold supportVisitBody
  refine .lines ?_
  repeat' split
  · exact List.forall_mem_singleton.2 (hline 2 rfl (by decide))
  · simp only [List.forall_mem_cons]
    exact ⟨hline 2 heach (by decide), hline 3 rfl (by decide), hline 2 rfl (by decide),
      List.forall_mem_nil _⟩
  · simp only [List.forall_mem_cons]
    exact ⟨hline 2 rfl (by decide), hline 3 heach (by decide), hline 4 rfl (by decide),
      hline 3 rfl (by decide), hline 2 rfl (by decide), List.forall_mem_nil _⟩
  · simp only [List.forall_mem_cons]
    exact ⟨hline 2 rfl (by decide), hline 3 rfl (by decide), hline 2 rfl (by decide),
      List.forall_mem_nil _⟩
  · exact List.forall_mem_nil _

/-- What stands around the visits of node types, in interfaces and in classes, is documented. -/
theorem documented_interfaceAround (hconfig : config.Unclosed) (flavor : Flavor) {visits : Code}
    (hvisits : Documented comments visits) :
    Documented comments (interfaceAround config flavor visits) := by
  have hindent := spaced_ofLevel config.indentAmount 1
  have hheading : ((Indent.ofLevel config.indentAmount 0).opening
      ("public interface " ++ flavor.genericName config)).Plain :=
    plain_line (spaced_ofLevel ..) (Text.head?_append (Text.head?_append rfl)) (by decide)
  have hsupports : Documented comments (config.supportNames.flatMap fun node =>
      flavor.supportVisitDoc config (.ofLevel config.indentAmount 1) node ++
        flavor.visitDeclaration config (.ofLevel config.indentAmount 1) node) :=
    .flatMap fun node hnode => (documented_supportVisitDoc hconfig hindent flavor hnode).append
      (documented_visitDeclaration hindent config flavor node)
  exact (Documented.append (.cons hheading (.cons plain_emptyLine hsupports)) hvisits).append
    (documented_closing (spaced_ofLevel ..))

theorem documented_depthFirstAround (hconfig : config.Unclosed) {visits : Code}
    (hvisits : Documented comments visits) :
    Documented comments (depthFirstAround config visits) := by
  have hindent := spaced_ofLevel config.indentAmount 1
  have hheading : ((Indent.ofLevel config.indentAmount 0).opening
      ("public class " ++ depthFirstName ++ " implements " ++ Flavor.void.name config)).Plain :=
    plain_line (spaced_ofLevel ..)
      (Text.head?_append (Text.head?_append (Text.head?_append (Text.head?_append rfl))))
      (by decide)
  have hsupports : Documented comments (config.supportNames.flatMap fun node =>
      Flavor.void.supportVisitDoc config (.ofLevel config.indentAmount 1) node ++
        depthFirstMethod config (.ofLevel config.indentAmount 1) node
          (supportVisitBody config node)) :=
    .flatMap fun node hnode => (documented_supportVisitDoc hconfig hindent .void hnode).append
      (documented_override hindent _ (documented_supportVisitBody config node))
  exact (Documented.append (.cons hheading (.cons plain_emptyLine hsupports)) hvisits).append
    (documented_closing (spaced_ofLevel ..))

end Visits

end TreeSmith

import TreeSmith.Java.Identifier
import TreeSmith.Proofs.Code.Lines
import TreeSmith.Proofs.Generation.Memory
import TreeSmith.Proofs.NodeType.Fields
import TreeSmith.Support

/-!
# TreeSmith.Proofs.Code.Comments

**Which lines are comments.** A line is a comment if it starts, behind its spaces, with `/**`, `*`
or `//`. All documentation is made of such lines (`OnlyComments`), and so is what is written about
the comments of a grammar.

Settings and the names of node types have no line feed in them. A comment of a grammar may have
some, unless the grammar was read from a text; so a line of code that is a comment may be more than
one line of text, but only by what it quotes from one of these comments (`Text.Quotes`).
-/

namespace TreeSmith

namespace Text

/-- Does the line start, behind its spaces, like a line of a comment? -/
def isCommentLine (line : List Char) : Bool :=
  ["/**", "*", "//"].any fun mark => mark.toList.isPrefixOf (unindent line)

/-- The text has no line feed in it but those of one of the comments. -/
def Quotes (comments : List Comment) (text : List Char) : Prop :=
  ∃ before quoted after, text = before ++ quoted ++ after ∧ '\n' ∉ before ∧ '\n' ∉ after ∧
    (quoted = [] ∨ ∃ comment ∈ comments, quoted = (trim comment.text).toList)

namespace Quotes

variable {comments : List Comment} {text : List Char}

theorem ofSingle (h : '\n' ∉ text) : Quotes comments text :=
  ⟨text, [], [], by simp, h, List.not_mem_nil, Or.inl rfl⟩

theorem ofComment {comment : Comment} (h : comment ∈ comments) {after : List Char}
    (hafter : '\n' ∉ after) : Quotes comments ((trim comment.text).toList ++ after) := by
  refine ⟨[], (trim comment.text).toList, after, ?_, List.not_mem_nil, hafter,
    Or.inr ⟨comment, h, rfl⟩⟩
  rw [List.nil_append]

theorem append {before : List Char} (hbefore : '\n' ∉ before) (h : Quotes comments text) :
    Quotes comments (before ++ text) := by
  obtain ⟨more, quoted, after, rfl, hmore, hafter, hquoted⟩ := h
  refine ⟨before ++ more, quoted, after, by simp, ?_, hafter, hquoted⟩
  rw [List.mem_append, not_or]
  exact ⟨hbefore, hmore⟩

/-- If no comment has a line feed in it, neither has what quotes one. -/
theorem not_mem (hcomments : ∀ comment ∈ comments, SingleLine comment.text)
    (h : Quotes comments text) : '\n' ∉ text := by
  obtain ⟨before, quoted, after, rfl, hbefore, hafter, rfl | ⟨comment, hcomment, rfl⟩⟩ := h
  · simp [hbefore, hafter]
  · have hquoted : '\n' ∉ (trim comment.text).toList := (hcomments comment hcomment).trim
    simp [hbefore, hafter, hquoted]

end Quotes

end Text

/-! ## Lines that are comments -/

/-- The line is written as a comment, and as one line of text except for what it quotes from one
of these comments. -/
structure CodeLine.IsComment (comments : List Comment) (line : CodeLine) : Prop where
  marked : Text.isCommentLine line.chars = true
  quotes : Text.Quotes comments line.chars

/-- All lines are comments. -/
def OnlyComments (comments : List Comment) (code : Code) : Prop :=
  ∀ line ∈ code, line.IsComment comments

namespace OnlyComments

variable {comments : List Comment}

theorem nil : OnlyComments comments [] := List.forall_mem_nil _

theorem cons {line : CodeLine} {code : Code} (hline : line.IsComment comments)
    (hcode : OnlyComments comments code) : OnlyComments comments (line :: code) :=
  List.forall_mem_cons.2 ⟨hline, hcode⟩

theorem append {a b : Code} (ha : OnlyComments comments a) (hb : OnlyComments comments b) :
    OnlyComments comments (a ++ b) :=
  fun line hline => (List.mem_append.1 hline).elim (ha line) (hb line)

theorem codeIf {code : Code} (h : OnlyComments comments code) (wanted : Bool) :
    OnlyComments comments (codeIf wanted code) := by
  cases wanted with
  | true => exact h
  | false => exact nil

theorem map {α : Type} {f : α → CodeLine} {l : List α}
    (h : ∀ a ∈ l, (f a).IsComment comments) : OnlyComments comments (l.map f) :=
  List.forall_mem_map.2 h

end OnlyComments

section Comments

variable {comments : List Comment} {indent : Indent} {text : String}

theorem isComment_line (hindent : indent.Spaced) (htext : Text.Quotes comments text.toList)
    (hmark : Text.isCommentLine text.toList = true) : (indent.line text).IsComment comments := by
  refine ⟨?_, ?_⟩
  · rwa [Text.isCommentLine, unindent_line hindent]
  · obtain ⟨n, hchars⟩ := chars_line hindent text
    rw [hchars]
    exact htext.append (by simp)

theorem isComment_docLine (hindent : indent.Spaced) (htext : Text.Quotes comments text.toList) :
    (indent.docLine text).IsComment comments := by
  refine isComment_line hindent ?_ ?_
  · rw [String.toList_append]
    exact htext.append (by decide)
  · rw [String.toList_append]
    rfl

theorem isComment_docGap (hindent : indent.Spaced) : indent.docGap.IsComment comments :=
  isComment_line hindent (.ofSingle (by decide)) (by decide)

theorem isComment_shortDoc (hindent : indent.Spaced) (htext : Text.SingleLine text) :
    (indent.shortDoc text).IsComment comments := by
  refine isComment_line hindent (.ofSingle ?_) ?_
  · exact Text.singleLine_append.2 ⟨Text.singleLine_append.2 ⟨by decide, htext⟩, by decide⟩
  · rw [String.toList_append, String.toList_append]
    rfl

theorem isComment_codeComment (hindent : indent.Spaced)
    (htext : Text.Quotes comments text.toList) :
    (indent.line ("// " ++ text)).IsComment comments := by
  refine isComment_line hindent ?_ ?_
  · rw [String.toList_append]
    exact htext.append (by decide)
  · rw [String.toList_append]
    rfl

theorem onlyComments_docAround (hindent : indent.Spaced) {inside : Code}
    (hinside : OnlyComments comments inside) : OnlyComments comments (indent.docAround inside) :=
  .cons (isComment_line hindent (.ofSingle (by decide)) (by decide))
    (.append hinside
      (.cons (isComment_line hindent (.ofSingle (by decide)) (by decide)) .nil))

theorem onlyComments_doc (hindent : indent.Spaced) {tags : List String}
    (hsummary : Text.SingleLine text) (htags : ∀ tag ∈ tags, Text.SingleLine tag) :
    OnlyComments comments (indent.doc text tags) :=
  onlyComments_docAround hindent <|
    .cons (isComment_docLine hindent (.ofSingle hsummary)) <|
      .cons (isComment_docGap hindent) <|
        .map fun tag htag => isComment_docLine hindent (.ofSingle (htags tag htag))

end Comments

/-! ## What has no line feed in it -/

section SingleLine

variable {config : Config}

/-- The support classes have fixed names, but for the one of tokens. -/
theorem forall_mem_supportNames {P : String → Prop}
    (hfixed : ∀ node ∈ ["NodeChoice", "NodeList", "NodeListOptional", "NodeOptional",
      "NodeSequence"], P node)
    (htoken : P config.nodeToken) : ∀ node ∈ config.supportNames, P node :=
  List.forall_mem_append.2 ⟨hfixed, List.forall_mem_singleton.2 htoken⟩

namespace Config.SingleLine

theorem name (h : config.SingleLine) (flavor : Flavor) : Text.SingleLine (flavor.name config) := by
  refine h _ ?_
  cases flavor <;> simp [Flavor.name]

theorem retType (h : config.SingleLine) : Text.SingleLine config.retType := h _ (by simp)

theorem arguType (h : config.SingleLine) : Text.SingleLine config.arguType := h _ (by simp)

theorem nodeToken (h : config.SingleLine) : Text.SingleLine config.nodeToken := h _ (by simp)

theorem nodeInterface (h : config.SingleLine) : Text.SingleLine config.nodeInterface :=
  h _ (by simp)

theorem supportName (h : config.SingleLine) {node : String} (hnode : node ∈ config.supportNames) :
    Text.SingleLine node :=
  forall_mem_supportNames (by decide) h.nodeToken node hnode

end Config.SingleLine

/-- An identifier has no line feed in it. -/
theorem singleLine_of_isIdentifier {name : String} (h : Java.isIdentifier name = true) :
    Text.SingleLine name := by
  intro hfeed
  exact absurd (Java.continuesIdentifier_of_mem h hfeed) (by decide)

/-- The line says what one of the comments says, and where that is. -/
structure CommentLine.From (comments : List Comment) (line : CommentLine) : Prop where
  bare : ∃ comment ∈ comments, line.bare = Text.trim comment.text
  debug : Text.SingleLine (line.debug.getD "")

theorem CommentLine.From.quotes {comments : List Comment} {line : CommentLine}
    (h : line.From comments) {after : String} (hafter : Text.SingleLine after) :
    Text.Quotes comments (line.bare ++ after).toList := by
  obtain ⟨comment, hcomment, hbare⟩ := h.bare
  rw [hbare, String.toList_append]
  exact .ofComment hcomment hafter

/-- All blocks hold what some of the comments say. -/
structure Annotations.From (comments : List Comment) (annotations : Annotations) : Prop where
  fields : ∀ block ∈ annotations.fields, ∀ line ∈ block, line.From comments
  subs : ∀ sub ∈ annotations.subs.getD [], ∀ line ∈ sub.block, line.From comments

/-- The line is what one of the comments becomes. -/
def Commentary.Shows (commentary : Commentary) (line : CommentLine) : Prop :=
  ∃ owner, ∃ comment ∈ commentary.comments, line = commentary.line owner comment

theorem Commentary.Shows.from {commentary : Commentary} {line : CommentLine}
    (h : commentary.Shows line) : line.From commentary.comments := by
  obtain ⟨owner, comment, hcomment, rfl⟩ := h
  refine ⟨⟨comment, hcomment, rfl⟩, ?_⟩
  have hlabel : Text.SingleLine owner.label := by
    cases owner with
    | field i => exact Text.singleLine_append.2 ⟨by decide, Text.singleLine_toString i⟩
    | sub k => exact Text.singleLine_append.2 ⟨by decide, Text.singleLine_toString k⟩
  rw [Commentary.line]
  cases commentary.config.debugComments with
  | true => simp +decide [Span.render, hlabel]
  | false => simp +decide

/-- A block takes up some of the comments inside the production, whoever their owners are. -/
theorem shows_of_mem_blockOf {commentary : Commentary} {slots : List FieldSlot} {span : Span}
    {owner : Owner} {line : CommentLine}
    (h : line ∈ Commentary.blockOf (commentary.owned slots span) owner) :
    commentary.Shows line := by
  obtain ⟨⟨o, found⟩, howned, hfound⟩ := List.mem_filterMap.1 h
  obtain ⟨comment, hcomment, hpair⟩ := List.mem_map.1 howned
  obtain ⟨rfl, rfl⟩ := Prod.mk.inj hpair
  dsimp only at hfound
  split at hfound
  · obtain rfl := Option.some.inj hfound
    exact ⟨_, comment, (mem_commentsIn.1 hcomment).1, rfl⟩
  · cases hfound

theorem shows_annotate {commentary : Commentary} {production : Production}
    {annotations : Annotations} (h : commentary.annotate production = some annotations) :
    (∀ block ∈ annotations.fields, ∀ line ∈ block, commentary.Shows line) ∧
      ∀ sub ∈ annotations.subs.getD [], ∀ line ∈ sub.block, commentary.Shows line := by
  obtain ⟨choices, -, rfl⟩ := Option.map_eq_some_iff.1 h
  refine ⟨?_, ?_⟩
  · intro block hmem line hline
    obtain ⟨i, -, rfl⟩ := List.mem_map.1 hmem
    exact shows_of_mem_blockOf hline
  · intro sub hmem line hline
    cases hinline : commentary.config.inlineAcceptMethods with
    | false => simp [hinline] at hmem
    | true =>
        simp only [hinline, if_true, Option.getD_some] at hmem
        obtain ⟨_, -, rfl⟩ := List.mem_map.1 hmem
        exact shows_of_mem_blockOf hline

theorem from_annotate {commentary : Commentary} {production : Production}
    {annotations : Annotations} (h : commentary.annotate production = some annotations) :
    annotations.From commentary.comments := by
  obtain ⟨hfields, hsubs⟩ := shows_annotate h
  exact ⟨fun block hblock line hline => (hfields block hblock line hline).from,
    fun sub hsub line hline => (hsubs sub hsub line hline).from⟩

theorem from_annotateIf (commentary : Commentary) (wanted : Bool) (production : Production)
    (annotations : Annotations) (h : commentary.annotateIf wanted production = some annotations) :
    annotations.From commentary.comments := by
  unfold Commentary.annotateIf at h
  split at h
  · exact from_annotate h
  · cases h

/-- The fields of node types are named by a number. -/
theorem singleLine_name_of_mem_fields {production : Production} {field : Field}
    (h : field ∈ (NodeType.lower config production).fields) : Text.SingleLine field.name := by
  rcases mem_fields_lower h with rfl | ⟨-, part, i, -, -, rfl⟩
  · decide
  · exact Text.singleLine_append.2 ⟨by decide, Text.singleLine_toString i⟩

end SingleLine

/-! ## Documentation -/

section Documentation

variable {comments : List Comment} {config : Config} {indent : Indent}

/-- A text that stands in a list under a condition. -/
theorem forall_mem_if {P : String → Prop} {text : String} (h : P text) (wanted : Bool) :
    ∀ tag ∈ if wanted then [text] else [], P tag := by
  cases wanted with
  | true => exact List.forall_mem_singleton.2 h
  | false => exact List.forall_mem_nil _

theorem onlyComments_acceptDoc (hconfig : config.SingleLine) (hindent : indent.Spaced)
    (flavor : Flavor) : OnlyComments comments (flavor.acceptDoc config indent) := by
  refine onlyComments_doc hindent ?_ ?_
  · simp +decide [hconfig.name flavor]
  · have hreturn : Text.SingleLine
        ("@param <" ++ config.retType ++ "> - the user return type") := by
      simp +decide [hconfig.retType]
    have hargument : Text.SingleLine
        ("@param <" ++ config.arguType ++ "> - the user argument type") := by
      simp +decide [hconfig.arguType]
    have hvariadic : Text.SingleLine ("@param argu - " ++
        if config.variadicArgs then "the user arguments" else "a user chosen argument") := by
      cases config.variadicArgs <;> decide
    have hresult : Text.SingleLine "@return a user chosen return information" := by decide
    simp only [List.forall_mem_append]
    exact ⟨⟨⟨⟨forall_mem_if hreturn _, forall_mem_if hargument _⟩,
      List.forall_mem_singleton.2 (by decide)⟩, forall_mem_if hvariadic _⟩,
      forall_mem_if hresult _⟩

theorem onlyComments_setParentDoc (hindent : indent.Spaced) :
    OnlyComments comments
      (indent.doc "Sets the parent node." ["@param n - the parent node"]) :=
  onlyComments_doc hindent (by decide) (by decide)

theorem onlyComments_getParentDoc (hindent : indent.Spaced) :
    OnlyComments comments (indent.doc "Gets the parent node." ["@return the parent node"]) :=
  onlyComments_doc hindent (by decide) (by decide)

/-- The documentation of a constructor says what its parameters are. -/
theorem onlyComments_constructorDoc (hconfig : config.SingleLine) (hindent : indent.Spaced)
    (fields : List Field) (kind : ConstructorKind) :
    OnlyComments comments
      (indent.doc (constructorSummary config kind fields.length) <|
        (List.range (parameters kind 0 fields).length).map fun n =>
          "@param " ++ parameterName n ++ " - " ++ parameterNote kind fields.length n) := by
  refine onlyComments_doc hindent ?_ (List.forall_mem_map.2 fun n _ => ?_)
  · unfold constructorSummary
    split
    · refine Text.singleLine_append.2 ⟨?_, by split <;> decide⟩
      simp +decide [hconfig.nodeToken]
    · decide
    · decide
  · have hnote : Text.SingleLine (parameterNote kind fields.length n) := by
      unfold parameterNote
      split <;> decide
    simp +decide [parameterName, hnote]

theorem onlyComments_childlessDoc (hindent : indent.Spaced) :
    OnlyComments comments
      (indent.docAround [indent.docLine "Constructs the node (which has no child)."]) :=
  onlyComments_docAround hindent (.cons (isComment_docLine hindent (.ofSingle (by decide))) .nil)

theorem onlyComments_visitDocAround (hindent : indent.Spaced) (config : Config) (flavor : Flavor)
    {node : String} (hnode : Text.SingleLine node) {fieldLines : Code}
    (hlines : OnlyComments comments fieldLines) :
    OnlyComments comments (flavor.visitDocAround config indent node fieldLines) := by
  have hlink : Text.SingleLine ("Visits a \x7b@link " ++ node ++ "\x7d node.") := by
    simp +decide [hnode]
  have hargument : Text.SingleLine ("@param argu - " ++
      if config.variadicArgs then "the user arguments" else "the user argument") := by
    cases config.variadicArgs <;> decide
  have hline : ∀ {text : String}, Text.SingleLine text →
      (indent.docLine text).IsComment comments :=
    fun htext => isComment_docLine hindent (.ofSingle htext)
  refine onlyComments_docAround hindent ?_
  refine .append (.append (.append (.cons (hline hlink) hlines) ?_) ?_) ?_
  · exact .cons (isComment_docGap hindent) (.cons (hline (by decide)) .nil)
  · exact .codeIf (.cons (hline hargument) .nil) _
  · exact .codeIf (.cons (hline (by decide)) .nil) _

theorem onlyComments_fieldDoc (hindent : indent.Spaced) {block : CommentBlock}
    (hblock : ∀ line ∈ block, line.From comments) :
    OnlyComments comments (fieldDoc indent block) :=
  .codeIf (onlyComments_docAround hindent
    (.map fun line hline => isComment_docLine hindent
      ((hblock line hline).quotes (hblock line hline).debug))) _

/-- The documentation of a field, if there are comments at all. -/
theorem onlyComments_fieldDocAt (hindent : indent.Spaced) {annotations : Option Annotations}
    (hfrom : ∀ known, annotations = some known → known.From comments) (i : Nat) :
    OnlyComments comments (fieldDoc indent ((annotations.bind (·.fields[i]?)).getD [])) := by
  refine onlyComments_fieldDoc hindent fun line hline => ?_
  cases hblock : annotations.bind (·.fields[i]?) with
  | none => simp [hblock] at hline
  | some block =>
      obtain ⟨known, hknown, hfound⟩ := Option.bind_eq_some_iff.1 hblock
      rw [hblock] at hline
      exact (hfrom known hknown).fields block (List.mem_of_getElem? hfound) line hline

theorem onlyComments_docLines (hindent : indent.Spaced) {annotations : Annotations}
    (h : annotations.From comments) : OnlyComments comments (Ask.docLines indent annotations) := by
  refine .map fun line hline => ?_
  obtain ⟨block, hblock, hline⟩ := List.mem_flatten.1 hline
  have hfrom := h.fields block hblock line hline
  exact isComment_docLine hindent (hfrom.quotes hfrom.debug)

theorem onlyComments_supportVisitDoc (hconfig : config.SingleLine) (hindent : indent.Spaced)
    (flavor : Flavor) {node : String} (hnode : node ∈ config.supportNames) :
    OnlyComments comments (flavor.supportVisitDoc config indent node) :=
  .codeIf (onlyComments_visitDocAround hindent config flavor (hconfig.supportName hnode) .nil) _

theorem onlyComments_visitDoc (config : Config) (commentary : Commentary)
    (hindent : indent.Spaced) (flavor : Flavor) (bare : Bool) {nodeType : NodeType}
    (hname : Text.SingleLine nodeType.name) :
    OnlyComments commentary.comments (commentary.visitDoc config flavor indent bare nodeType) := by
  have hlines : OnlyComments commentary.comments
      (commentary.fieldDocs indent nodeType.production) := by
    unfold Commentary.fieldDocs
    cases hfound : commentary.annotate nodeType.production with
    | none => exact .nil
    | some known => exact onlyComments_docLines hindent (from_annotate hfound)
  exact .codeIf (onlyComments_visitDocAround hindent config flavor hname (hlines.codeIf _)) _

theorem onlyComments_codeComments (hindent : indent.Spaced) (config : Config)
    {extra : Option String} (hextra : Text.SingleLine (Ask.noteText extra)) {block : CommentBlock}
    (hblock : ∀ line ∈ block, line.From comments) :
    OnlyComments comments (Ask.codeComments config indent extra block) := by
  refine .map fun line hline => ?_
  rw [String.append_assoc]
  refine isComment_codeComment hindent ((hblock line hline).quotes ?_)
  cases config.debugComments with
  | true => exact hextra
  | false => simp +decide

theorem onlyComments_inlineComments (hindent : indent.Spaced) (config : Config) (i : Nat)
    {field : Field} (hfield : Text.SingleLine field.name) {known : Option Annotations}
    (hknown : ∀ annotations, known = some annotations → annotations.From comments) :
    OnlyComments comments (inlineComments config indent i field known) := by
  cases known with
  | none => exact .nil
  | some annotations =>
      have hfrom := hknown annotations rfl
      refine .append (onlyComments_codeComments hindent config ?_ ?_) ?_
      · exact Text.singleLine_append.2 ⟨by decide, hfield⟩
      · intro line hline
        cases hblock : annotations.fields[i]? with
        | none => simp [hblock] at hline
        | some block =>
            rw [hblock] at hline
            exact hfrom.fields block (List.mem_of_getElem? hblock) line hline
      · intro line hline
        obtain ⟨sub, hsub, hline⟩ := List.mem_flatMap.1 hline
        refine onlyComments_codeComments hindent config ?_ ?_ line hline
        · exact Text.singleLine_append.2
            ⟨by decide, Text.singleLine_append.2 ⟨by decide, Text.singleLine_toString _⟩⟩
        · exact hfrom.subs _
            (List.mem_of_getElem? (Annotations.getElem?_of_mem_subsOf hsub))

end Documentation

end TreeSmith

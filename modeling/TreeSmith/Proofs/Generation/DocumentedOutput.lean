import TreeSmith.Proofs.Code.Documentation
import TreeSmith.Proofs.Code.Implementation
import TreeSmith.Proofs.Generation.ParentPointer
import TreeSmith.Proofs.Lexical.Comments
import TreeSmith.Proofs.Written.Text

/-!
# TreeSmith.Proofs.Generation.DocumentedOutput

**Documentation ends where it was closed, as far as the generator can see to it.** Comments of a
grammar get into the documentation of fields and of visits, and they are written there as they are.
So the documentation blocks of an output end where the generator closes them, except for those that
show a comment with an end of a comment in its text (`generate_documentation`).

* The blocks are read off the lines of the output, as a reader of the output would find them. What
  the generator takes for a line is one, unless a setting has a line feed in it; so they are read
  off the lines of the generator in general, and off those of the text for settings without line
  feeds.
* The grammar is one that was read from a text, so that there is no user code in it, with
  documentation of its own, and no line feed in a comment.
-/

namespace TreeSmith

/-! ## Grammars without user code -/

theorem code_withSpan (part : Part) (span : Span) : (part.withSpan span).code = part.code := by
  cases part <;> rfl

/-- What is written in a text has no code attached to it. -/
theorem code_place (part : WrittenPart) (opens : List Span) : (part.place opens).code = none := by
  cases part with
  | leaf leaf => cases leaf <;> rfl
  | repeated => rfl
  | labeled _ _ _ part => rw [WrittenPart.place, code_withSpan, code_place part []]
  | group => rfl
  | postfixed => rfl
  | parens opened part _ => exact code_place part (opens ++ [opened])

theorem code_of_mem_placeSequence (sequence : WrittenSequence) (opens : List Span) :
    ∀ part ∈ sequence.place opens, part.code = none := by
  cases sequence with
  | one part => exact List.forall_mem_singleton.2 (code_place part opens)
  | more part rest =>
      exact List.forall_mem_cons.2 ⟨code_place part opens, code_of_mem_placeSequence rest []⟩
  | parens opened sequence _ => exact code_of_mem_placeSequence sequence (opens ++ [opened])

theorem code_of_mem_placeChoices (choices : WrittenChoices) (opens : List Span) :
    ∀ sequence ∈ choices.place opens, ∀ part ∈ sequence, part.code = none := by
  cases choices with
  | one sequence => exact List.forall_mem_singleton.2 (code_of_mem_placeSequence sequence opens)
  | more sequence _ rest =>
      exact List.forall_mem_cons.2
        ⟨code_of_mem_placeSequence sequence opens, code_of_mem_placeChoices rest []⟩
  | parens opened choices _ => exact code_of_mem_placeChoices choices (opens ++ [opened])

/-- The fields of a node type have no user code if its production was read from a text. -/
theorem code_of_mem_fields_ofText {text : String} {grammar : Grammar}
    (h : Grammar.ofText text = .ok grammar) (config : Config) :
    ∀ production ∈ grammar.productions,
      ∀ field ∈ (NodeType.lower config production).fields, field.code = none := by
  obtain ⟨-, lexemes, productions, -, rfl⟩ := exists_written_of_ofText h
  intro production hproduction field hfield
  obtain ⟨written, -, rfl⟩ := List.mem_map.1 hproduction
  rcases mem_fields_lower hfield with rfl | ⟨choices, part, i, hchoices, hpart, rfl⟩
  · rfl
  · obtain rfl : written.choices.place [] = choices := Option.some.inj hchoices
    obtain ⟨sequence, hsequence, hmem⟩ := List.mem_flatten.1 (List.mem_of_getElem? hpart)
    have hcode := code_of_mem_placeChoices written.choices [] sequence hsequence part hmem
    rw [partField, hcode]
    rfl

/-! ## What is written for node types -/

/-- All that is written for the node types of a grammar, as code: their classes, the visitor
interfaces, and the depth-first visitor. -/
def Grammar.writtenCode (config : Config) (grammar : Grammar) : List Code :=
  let shares := grammar.productions.map (share config grammar.comments)
  (grammar.productions.map fun production =>
    Commentary.declaration ⟨grammar.comments, config⟩ config (NodeType.lower config production)) ++
  (Flavor.all.map fun flavor =>
    interfaceAround config flavor (shares.flatMap (·.declaration flavor))) ++
  [depthFirstAround config (shares.flatMap Share.method)]

section Written

variable {config : Config} {grammar : Grammar}

theorem text_nodeType_share (config : Config) (comments : List Comment)
    (production : Production) :
    (share config comments production).nodeType.text = renderCode
      (Commentary.declaration ⟨comments, config⟩ config (NodeType.lower config production)) := rfl

/-- The units have this code as their texts. -/
theorem texts_assemble (config : Config) (grammar : Grammar) :
    ((assemble config (grammar.productions.map (share config grammar.comments))).nodeTypes ++
      (assemble config (grammar.productions.map (share config grammar.comments))).visitors).map
        CompilationUnit.text = (grammar.writtenCode config).map renderCode := by
  rw [nodeTypes_assemble, visitors_assemble, Grammar.writtenCode]
  simp only [List.map_append, List.map_map, List.append_assoc]
  rfl

/-- What is said of the code of all productions holds of what is written for the node types. -/
theorem forall_mem_writtenCode {P : Code → Prop}
    (hclass : ∀ production ∈ grammar.productions,
      P (Commentary.declaration ⟨grammar.comments, config⟩ config
        (NodeType.lower config production)))
    (hinterface : ∀ flavor, P (interfaceAround config flavor
      (grammar.productions.flatMap fun production =>
        (share config grammar.comments production).declaration flavor)))
    (hdepthFirst : P (depthFirstAround config (grammar.productions.flatMap fun production =>
      (share config grammar.comments production).method))) :
    ∀ code ∈ grammar.writtenCode config, P code := by
  rw [Grammar.writtenCode]
  refine List.forall_mem_append.2 ⟨List.forall_mem_append.2
    ⟨List.forall_mem_map.2 hclass, List.forall_mem_map.2 fun flavor _ => ?_⟩,
    List.forall_mem_singleton.2 ?_⟩
  · rw [List.flatMap_map]
    exact hinterface flavor
  · rw [List.flatMap_map]
    exact hdepthFirst

/-- What is written for a production in the interfaces, and in the depth-first visitor. -/
theorem documented_share (comments : List Comment) {production : Production}
    (hname : Text.Unclosed (config.typeName production.name))
    (hcode : ∀ field ∈ (NodeType.lower config production).fields, field.code = none) :
    (∀ flavor, Documented comments ((share config comments production).declaration flavor)) ∧
      Documented comments (share config comments production).method := by
  have hindent := spaced_ofLevel config.indentAmount 1
  have hnode : Text.Unclosed (NodeType.lower config production).name := by
    rwa [name_lower]
  have hdoc := fun flavor bare =>
    documented_visitDoc config ⟨comments, config⟩ hindent flavor bare hnode
  refine ⟨fun flavor => ?_, ?_⟩
  · exact (hdoc flavor false).append (documented_visitDeclaration hindent config flavor _)
  · exact (hdoc .void config.inlineAcceptMethods).append (documented_override hindent _
      (documented_fieldVisits (spaced_move _ 1) config _ 0 hcode))

/-- Node types, visitor interfaces and the depth-first visitor are documented. -/
theorem documented_writtenCode (hconfig : config.Unclosed)
    (hnames : ∀ production ∈ grammar.productions,
      Text.Unclosed (config.typeName production.name))
    (hcode : ∀ production ∈ grammar.productions,
      ∀ field ∈ (NodeType.lower config production).fields, field.code = none) :
    ∀ code ∈ grammar.writtenCode config, Documented grammar.comments code := by
  have hshares := fun production hproduction =>
    documented_share grammar.comments (hnames production hproduction)
      (hcode production hproduction)
  refine forall_mem_writtenCode (fun production _ => ?_) (fun flavor => ?_) ?_
  · exact documented_declaration hconfig ⟨grammar.comments, config⟩ production
  · exact documented_interfaceAround hconfig flavor
      (.flatMap fun production hproduction => (hshares production hproduction).1 flavor)
  · exact documented_depthFirstAround hconfig
      (.flatMap fun production hproduction => (hshares production hproduction).2)

/-- If the settings have no line feed in them, and the comments have none, each line of the code is
one line of text. -/
theorem singleLine_writtenCode (hconfig : config.SingleLine)
    (hcomments : ∀ comment ∈ grammar.comments, Text.SingleLine comment.text)
    (hnamed : WellNamed config grammar.productions) (hreferenced : grammar.WellReferenced) :
    ∀ code ∈ grammar.writtenCode config, ∀ line ∈ code, line.SingleLine := by
  have hname : ∀ production ∈ grammar.productions,
      Text.SingleLine (config.typeName production.name) := fun production hproduction =>
    singleLine_of_isIdentifier (hnamed.identifiers production hproduction)
  refine forall_mem_writtenCode (fun production hproduction => ?_) (fun flavor => ?_) ?_
  · have hnode : Text.SingleLine (NodeType.lower config production).name := by
      rw [name_lower]
      exact hname production hproduction
    obtain ⟨hwith, hwithout⟩ := (withParents_declarationCode hconfig
      (fun _ hfield => singleLine_type_of_mem_fields hconfig hnamed hreferenced hproduction hfield)
      hnode (from_annotateIf ⟨grammar.comments, config⟩ _ _)).singleLine hcomments
    -- The settings are those with a parent, or those without one.
    cases hparent : config.parentPointer with
    | true =>
        have hsame : config.withParents = config := by rw [Config.withParents, ← hparent]
        rw [hsame] at hwith
        exact hwith
    | false =>
        have hsame : config.withoutParents = config := by rw [Config.withoutParents, ← hparent]
        rw [hsame] at hwithout
        exact hwithout
  · have hvisits : Members grammar.comments (declarationOf (.ofLevel config.indentAmount 1))
        Text.SingleLine _ (grammar.productions.map fun production =>
          flavor.visitSignature config (config.typeName production.name)) :=
      .flatMap fun production hproduction =>
        members_declaration_share hconfig flavor (hname production hproduction)
    rw [← Function.comp_def (flavor.visitSignature config), ← List.map_map] at hvisits
    exact singleLine_interfaceAround hconfig hcomments flavor hvisits
  · have hvisits : Members grammar.comments (Method.override (.ofLevel config.indentAmount 1))
        (Method.Proper grammar.comments grammar.codeLines) _ _ :=
      .flatMap fun production hproduction =>
        members_method_share hconfig (hname production hproduction) fun line hline =>
          List.mem_flatMap.2 ⟨production, hproduction, hline⟩
    exact singleLine_depthFirstAround hconfig hcomments hvisits

end Written

/-! ## The output of a pass -/

/-- What is read off documented code are blocks that end where they were closed, unless a comment
that they show ends them. -/
theorem Documented.closedAtEnd_iff {comments : List Comment} {code : Code}
    (h : Documented comments code) (rest : List (List Char)) (hrest : Text.docBlocks rest = []) :
    ∀ block ∈ Text.docBlocks (code.map CodeLine.chars ++ rest),
      (Text.ClosedAtEnd block ↔ ∀ comment ∈ comments,
        Text.Shows block comment.text → Text.Unclosed comment.text) := by
  obtain ⟨blocks, hblocks, hsound⟩ := h
  rw [hblocks.docBlocks_append hsound, hrest, List.append_nil]
  exact List.forall_mem_map.2 fun block hblock => (hsound block hblock).closedAtEnd_iff

/-- If every line of the code is one line of text, then it is read line by line. -/
theorem lines_renderCode_of_singleLine {code : Code} (h : ∀ line ∈ code, line.SingleLine) :
    Text.lines (renderCode code).toList = code.map CodeLine.chars ++ [[]] := by
  rw [lines_renderCode, textLines_of_singleLine h]

/-- **Documentation ends where it was closed, as far as the generator can see to it.** If a text is
read as a grammar, and no setting has an end of a comment in it, then a documentation block in what
is written for node types ends early if and only if it shows a comment of the grammar with an end
of a comment in its text. These are the blocks among the lines that the generator writes, and if no
setting has a line feed in it, they are the ones among the lines of the text. -/
theorem generate_documentation (text : String) (grammar : Grammar) (config : Config)
    (output : Output) (htext : Grammar.ofText text = .ok grammar) (hconfig : config.Unclosed)
    (houtput : (generate config grammar).value.outcome = .ok output) :
    (output.nodeTypes ++ output.visitors).map CompilationUnit.text =
      (grammar.writtenCode config).map renderCode ∧
    (∀ code ∈ grammar.writtenCode config,
      ∀ block ∈ Text.docBlocks (code.map CodeLine.chars),
        (Text.ClosedAtEnd block ↔ ∀ comment ∈ grammar.comments,
          Text.Shows block comment.text → Text.Unclosed comment.text)) ∧
    (config.SingleLine → ∀ unit ∈ output.nodeTypes ++ output.visitors,
      ∀ block ∈ Text.docBlocks (Text.lines unit.text.toList),
        (Text.ClosedAtEnd block ↔ ∀ comment ∈ grammar.comments,
          Text.Shows block comment.text → Text.Unclosed comment.text)) := by
  obtain ⟨hnamed, hreferenced, rfl⟩ := outcome_eq_ok_iff.1 houtput
  have hnames : ∀ production ∈ grammar.productions,
      Text.Unclosed (config.typeName production.name) :=
    fun production hproduction =>
      Text.unclosed_of_isIdentifier (hnamed.identifiers production hproduction)
  have hdocumented :=
    documented_writtenCode hconfig hnames (code_of_mem_fields_ofText htext config)
  have htexts := texts_assemble config grammar
  refine ⟨htexts, fun code hcode => ?_, fun hsingle unit hunit => ?_⟩
  · have hread := (hdocumented code hcode).closedAtEnd_iff [] rfl
    rwa [List.append_nil] at hread
  · have hwritten : unit.text ∈ (grammar.writtenCode config).map renderCode :=
      htexts ▸ List.mem_map_of_mem hunit
    obtain ⟨code, hcode, heq⟩ := List.mem_map.1 hwritten
    rw [← heq, lines_renderCode_of_singleLine
      (singleLine_writtenCode hsingle (singleLine_of_ofText htext) hnamed hreferenced code hcode)]
    exact (hdocumented code hcode).closedAtEnd_iff _ rfl

/-- A comment that comes as near to an end of a comment as it can. -/
theorem generate_documentation_spaced : ∃ (grammar : Grammar) (config : Config) (output : Output),
    Grammar.ofText "A = 'a' // * /\nA?" = .ok grammar ∧
    config = { javadocComments := true, debugComments := true } ∧ config.Unclosed ∧
    (generate config grammar).value.outcome = .ok output ∧
    ∀ unit ∈ output.nodeTypes ++ output.visitors,
      ∀ block ∈ Text.docBlocks (Text.lines unit.text.toList), Text.ClosedAtEnd block := by
  have hread : Grammar.ofText "A = 'a' // * /\nA?" = .ok ⟨[⟨"A", ⟨0, 17⟩, .choices
      [[.terminal ⟨4, 7⟩ "a" none,
        .composite ⟨15, 17⟩ .optional [[.nonTerminal ⟨15, 16⟩ "A" none]] none]]⟩],
      [⟨⟨8, 14⟩, " * /"⟩]⟩ := by cbv
  refine ⟨_, _, _, hread, rfl, by decide, outcome_of_foundProblem? (by decide),
    fun unit hunit block hblock => ?_⟩
  obtain ⟨-, -, hends⟩ := generate_documentation _ _
    { javadocComments := true, debugComments := true } _ hread
    (by decide) (outcome_of_foundProblem? (by decide))
  refine (hends (by decide) unit hunit block hblock).2 fun comment hcomment _ => ?_
  obtain rfl := List.mem_singleton.1 hcomment
  decide

/-- A comment that ends the documentation of the field that it is about. -/
theorem documentation_ended_by_comment :
    ∃ (grammar : Grammar) (config : Config) (output : Output) (unit : CompilationUnit)
      (block : List (List Char)),
      Grammar.ofText "A =\n// */ int x;\n'a'" = .ok grammar ∧
      config = { javadocComments := true } ∧ config.Unclosed ∧
      (generate config grammar).value.outcome = .ok output ∧
      unit ∈ output.nodeTypes ∧ block ∈ Text.docBlocks (Text.lines unit.text.toList) ∧
      block = ["  /**".toList, "   * */ int x;".toList, "   */".toList] ∧
      ¬ Text.ClosedAtEnd block := by
  let config : Config := { javadocComments := true }
  let comment : Comment := ⟨⟨4, 16⟩, " */ int x;"⟩
  let production : Production := ⟨"A", ⟨0, 20⟩, .choices [[.terminal ⟨17, 20⟩ "a" none]]⟩
  let indent := Indent.ofLevel config.indentAmount 1
  let block : DocBlock := .long indent [.quoted comment ""]
  have hread : Grammar.ofText "A =\n// */ int x;\n'a'" = .ok ⟨[production], [comment]⟩ := by cbv
  have hconfig : config.Unclosed := by decide
  have hsound : block.Sound [comment] :=
    ⟨spaced_ofLevel .., List.forall_mem_singleton.2 ⟨List.mem_cons_self, by decide, by decide⟩⟩
  -- The only field is documented by this block, which comes first in the class.
  have hfields : DocumentedBy (fieldDeclarations indent
      (Commentary.annotateIf ⟨[comment], config⟩ true production) 0
      (NodeType.lower config production).fields) [block] := by
    refine .block block (.line ?_ (.line plain_emptyLine .nil))
    exact plain_line (spaced_ofLevel ..)
      (Text.head?_append (Text.head?_append (Text.head?_append (Text.head?_append rfl))))
      (by decide)
  obtain ⟨rest, hclass, hrest⟩ :=
    exists_documentedBy_declarationCode [comment] hconfig production hfields
  have hsucceeds : (generate config ⟨[production], [comment]⟩).value.outcome = .ok _ :=
    outcome_of_foundProblem? (by decide)
  obtain ⟨hnamed, hreferenced, -⟩ := outcome_eq_ok_iff.1 hsucceeds
  have hsingle : ∀ line ∈ Commentary.declaration ⟨[comment], config⟩ config
      (NodeType.lower config production), line.SingleLine :=
    singleLine_writtenCode (by decide) (singleLine_of_ofText hread) hnamed hreferenced _
      List.mem_cons_self
  refine ⟨_, config, _, (share config [comment] production).nodeType,
    block.code.map CodeLine.chars, hread, rfl, hconfig, hsucceeds, List.mem_cons_self, ?_,
    by decide, fun hends => ?_⟩
  · have hwritten : DocumentedBy (Commentary.declaration ⟨[comment], config⟩ config
        (NodeType.lower config production)) (block :: rest) := hclass
    rw [text_nodeType_share, lines_renderCode_of_singleLine hsingle,
      hwritten.docBlocks_append (List.forall_mem_cons.2 ⟨hsound, hrest⟩)]
    exact List.mem_append_left _ List.mem_cons_self
  · have hshown : Text.Shows (block.code.map CodeLine.chars) comment.text :=
      hsound.shows comment List.mem_cons_self
    have hunclosed := hsound.closedAtEnd_iff.1 hends comment List.mem_cons_self hshown
    exact absurd hunclosed (by decide)

end TreeSmith

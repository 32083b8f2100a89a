import TreeSmith.Proofs.Code.Members
import TreeSmith.Proofs.Generation.Units

/-!
# TreeSmith.Proofs.Code.Implementation

**What is declared is what is implemented.** The visitor interfaces declare one visit for every
support class and every node type, the depth-first visitor overrides exactly those of the void one,
and all node classes end in the same block, which overrides exactly what the node interface declares
(`generate_implements_declared`).

The signatures come from different emitters, each of which is described here by the members that it
writes (`members_declaration_share`, `members_method_share`, `members_dispatchBlock`).
-/

namespace TreeSmith

/-! ## What stands on one line -/

section SingleLine

variable {config : Config}

theorem singleLine_argument (hconfig : config.SingleLine) : Text.SingleLine config.argument := by
  unfold Config.argument
  split <;> simp +decide [hconfig.arguType]

theorem singleLine_furtherParameter (hconfig : config.SingleLine) (flavor : Flavor) :
    Text.SingleLine (flavor.furtherParameter config) := by
  unfold Flavor.furtherParameter
  split <;> simp +decide [singleLine_argument hconfig]

theorem singleLine_returnType (hconfig : config.SingleLine) (flavor : Flavor) :
    Text.SingleLine (flavor.returnType config) := by
  unfold Flavor.returnType
  split
  · exact hconfig.retType
  · decide

theorem singleLine_generics (hconfig : config.SingleLine) (flavor : Flavor) :
    Text.SingleLine (flavor.generics config) := by
  cases flavor <;> simp +decide [Flavor.generics, hconfig.retType, hconfig.arguType]

theorem singleLine_genericName (hconfig : config.SingleLine) (flavor : Flavor) :
    Text.SingleLine (flavor.genericName config) :=
  Text.singleLine_append.2 ⟨hconfig.name flavor, singleLine_generics hconfig flavor⟩

theorem singleLine_visitSignature (hconfig : config.SingleLine) (flavor : Flavor) {node : String}
    (hnode : Text.SingleLine node) : Text.SingleLine (flavor.visitSignature config node) := by
  simp +decide [Flavor.visitSignature, singleLine_returnType hconfig flavor, hnode,
    singleLine_furtherParameter hconfig flavor]

theorem singleLine_acceptSignature (hconfig : config.SingleLine) (flavor : Flavor) :
    Text.SingleLine (flavor.acceptSignature config) := by
  have hgenerics : Text.SingleLine
      (if flavor = .void then "" else flavor.generics config ++ " ") := by
    split
    · decide
    · simp +decide [singleLine_generics hconfig flavor]
  simp +decide [Flavor.acceptSignature, hgenerics, singleLine_returnType hconfig flavor,
    singleLine_genericName hconfig flavor, singleLine_furtherParameter hconfig flavor]

/-- A trimmed line of a text is a single line. -/
theorem singleLine_of_mem_trimmedLines {text line : String} (h : line ∈ Text.trimmedLines text) :
    Text.SingleLine line := by
  obtain ⟨hline, -⟩ := List.mem_filter.1 h
  obtain ⟨chars, hchars, rfl⟩ := List.mem_map.1 hline
  have hsingle : Text.SingleLine (String.ofList chars) :=
    Text.singleLine_ofList.2 (Text.not_mem_of_mem_lines hchars)
  simpa [Text.trim] using hsingle.trim

/-- A trimmed line of a text does not start with a space. -/
theorem unindent_of_mem_trimmedLines {text line : String} (h : line ∈ Text.trimmedLines text) :
    Text.unindent line.toList = line.toList := by
  obtain ⟨hline, -⟩ := List.mem_filter.1 h
  obtain ⟨chars, -, rfl⟩ := List.mem_map.1 hline
  rw [String.toList_ofList]
  cases hstripped : Text.stripEnds Text.isBlank chars with
  | nil => rfl
  | cons c rest =>
      -- What is left of the line is the start of what follows its first blanks.
      have hprefix : c :: rest <+: chars.dropWhile Text.isBlank := by
        rw [← hstripped, Text.stripEnds, ← List.reverse_suffix, List.reverse_reverse]
        exact List.dropWhile_suffix _
      obtain ⟨more, hmore⟩ := hprefix
      have hblank : Text.isBlank c = false := by
        have hhead := List.head?_dropWhile_not Text.isBlank chars
        rwa [← hmore] at hhead
      have hspace : c ≠ ' ' := by
        rintro rfl
        exact absurd hblank (by decide)
      rw [Text.unindent, List.dropWhile_cons_of_neg (by simpa using hspace)]

end SingleLine

/-! ## Bodies -/

section Bodies

variable {comments : List Comment} {user : List String} {indent : Indent}

theorem inBody_line (hindent : indent.Spaced) {text : String} (htext : Text.SingleLine text)
    (hstarts : Text.isAnnotation text.toList = false) :
    (indent.line text).InBody comments user := by
  refine Or.inr ⟨(singleLine_line hindent).2 htext, Or.inr ?_⟩
  rwa [Text.isAnnotation, unindent_line hindent]

theorem inBody_supportVisitBody {config : Config} (hconfig : config.SingleLine) (name : String) :
    ∀ line ∈ supportVisitBody config name, line.InBody comments user := by
  have hindent := spaced_ofLevel config.indentAmount
  have heach : ∀ level, ((Indent.ofLevel config.indentAmount level).opening
      ("for (final " ++ config.nodeInterface ++ " e : n.nodes)")).InBody comments user := by
    intro level
    refine inBody_line (hindent level) ?_ ?_
    · simp +decide [hconfig.nodeInterface]
    · simp only [String.toList_append]
      rfl
  have hfixed : ∀ level {text : String}, Text.SingleLine text →
      Text.isAnnotation text.toList = false →
        ((Indent.ofLevel config.indentAmount level).line text).InBody comments user :=
    fun level _ => inBody_line (hindent level)
  have hclosing : ∀ level,
      (Indent.ofLevel config.indentAmount level).closing.InBody comments user :=
    fun level => hfixed level (by decide) (by decide)
  have hpresent : ((Indent.ofLevel config.indentAmount 2).opening
      "if (n.present())").InBody comments user := hfixed 2 (by decide) (by decide)
  have haccept : ∀ level, ((Indent.ofLevel config.indentAmount level).line
      "e.accept(this);").InBody comments user := fun level => hfixed level (by decide) (by decide)
  unfold supportVisitBody
  split
  · exact List.forall_mem_singleton.2 (hfixed 2 (by decide) (by decide))
  split
  · simp only [List.forall_mem_cons]
    exact ⟨heach 2, haccept 3, hclosing 2, List.forall_mem_nil _⟩
  split
  · simp only [List.forall_mem_cons]
    exact ⟨hpresent, heach 3, haccept 4, hclosing 3, hclosing 2, List.forall_mem_nil _⟩
  split
  · simp only [List.forall_mem_cons]
    exact ⟨hpresent, hfixed 3 (by decide) (by decide), hclosing 2, List.forall_mem_nil _⟩
  · exact List.forall_mem_nil _

/-- The user's code for a field is written line by line. -/
theorem inBody_userCode (hindent : indent.Spaced) {field : Field}
    (huser : ∀ code, field.code = some code → ∀ line ∈ Text.trimmedLines code, line ∈ user) :
    ∀ line ∈ userCode indent field, line.InBody comments user := by
  unfold userCode
  cases hcode : field.code with
  | none => exact List.forall_mem_nil _
  | some code =>
      refine List.forall_mem_map.2 fun line hline => Or.inr ⟨?_, ?_⟩
      · exact (singleLine_line hindent).2 (singleLine_of_mem_trimmedLines hline)
      · refine Or.inl ?_
        rw [unindent_line hindent, unindent_of_mem_trimmedLines hline, String.ofList_toList]
        exact huser code hcode line hline

theorem inBody_fieldVisits (config : Config) (hindent : indent.Spaced)
    {known : Option Annotations}
    (hknown : ∀ annotations, known = some annotations → annotations.From comments) (i : Nat)
    {fields : List Field} (hnames : ∀ field ∈ fields, Text.SingleLine field.name)
    (huser : ∀ field ∈ fields, ∀ code, field.code = some code →
      ∀ line ∈ Text.trimmedLines code, line ∈ user) :
    ∀ line ∈ fieldVisits config indent known i fields, line.InBody comments user := by
  induction fields generalizing i with
  | nil => exact List.forall_mem_nil _
  | cons field fields ih =>
      obtain ⟨hname, hnames⟩ := List.forall_mem_cons.1 hnames
      obtain ⟨hcode, huser⟩ := List.forall_mem_cons.1 huser
      have hinline := onlyComments_inlineComments hindent config i hname hknown
      have hvisit : (fieldVisit indent field).InBody comments user := by
        refine inBody_line hindent ?_ ?_
        · simp +decide [hname]
        · simp only [String.toList_append]
          rfl
      rw [fieldVisits]
      intro line hline
      rcases List.mem_append.1 hline with hline | hline
      · rcases List.mem_append.1 hline with hline | hline
        · exact Or.inl (hinline line hline)
        · exact inBody_userCode hindent hcode line hline
      · rcases List.mem_cons.1 hline with rfl | hline
        · exact hvisit
        · exact ih (i + 1) hnames huser line hline

end Bodies

/-! ## The members of a visitor -/

/-- The lines of user code that a production hands on to the visit of its fields. -/
def Production.codeLines (production : Production) : List String :=
  ((production.choices?.getD []).flatten.filterMap Part.code).flatMap Text.trimmedLines

/-- The lines of user code of all productions. -/
def Grammar.codeLines (grammar : Grammar) : List String :=
  grammar.productions.flatMap Production.codeLines

theorem mem_codeLines_of_field {config : Config} {production : Production} {field : Field}
    (hfield : field ∈ (NodeType.lower config production).fields) {code : String}
    (hcode : field.code = some code) {line : String} (hline : line ∈ Text.trimmedLines code) :
    line ∈ production.codeLines := by
  rcases mem_fields_lower hfield with rfl | ⟨choices, part, i, hchoices, hpart, rfl⟩
  · cases hcode
  · obtain ⟨hpartCode, -⟩ := Option.filter_eq_some_iff.1 hcode
    refine List.mem_flatMap.2 ⟨code, List.mem_filterMap.2 ⟨part, ?_, hpartCode⟩, hline⟩
    rw [hchoices]
    exact List.mem_of_getElem? hpart

section Visitors

variable {config : Config} {comments : List Comment} {user : List String}
  {production : Production}

/-- What the visitor interface of a flavor declares, given the names of the node types. -/
def visitSignatures (config : Config) (names : List String) (flavor : Flavor) : List String :=
  (config.supportNames ++ names).map (flavor.visitSignature config)

theorem members_declaration_share
    (hconfig : config.SingleLine) (flavor : Flavor)
    (hname : Text.SingleLine (config.typeName production.name)) :
    Members comments (declarationOf (.ofLevel config.indentAmount 1)) Text.SingleLine
      ((share config comments production).declaration flavor)
      [flavor.visitSignature config (config.typeName production.name)] := by
  rw [← name_lower] at hname ⊢
  exact .documented
    (onlyComments_visitDoc config ⟨comments, config⟩ (spaced_ofLevel ..) flavor false hname)
    (singleLine_visitSignature hconfig flavor hname)

/-- The method of the depth-first visitor for a production. -/
def depthFirstVisit (config : Config) (comments : List Comment) (production : Production) :
    Method where
  signature := Flavor.void.visitSignature config (NodeType.lower config production).name
  body := Commentary.visitBody ⟨comments, config⟩ config
    ((Indent.ofLevel config.indentAmount 1).move 1) (NodeType.lower config production)

theorem method_share (config : Config) (comments : List Comment) (production : Production) :
    (share config comments production).method =
      Commentary.visitDoc ⟨comments, config⟩ config .void (.ofLevel config.indentAmount 1)
          config.inlineAcceptMethods (NodeType.lower config production) ++
        Method.override (.ofLevel config.indentAmount 1)
          (depthFirstVisit config comments production) := rfl

theorem members_method_share
    (hconfig : config.SingleLine)
    (hname : Text.SingleLine (config.typeName production.name))
    (huser : ∀ line ∈ production.codeLines, line ∈ user) :
    Members comments (Method.override (.ofLevel config.indentAmount 1))
      (Method.Proper comments user) (share config comments production).method
      [depthFirstVisit config comments production] := by
  rw [← name_lower] at hname
  have hbody : ∀ line ∈ (depthFirstVisit config comments production).body,
      line.InBody comments user :=
    inBody_fieldVisits config (spaced_move _ 1)
      (from_annotateIf ⟨comments, config⟩ _ _) 0
      (fun _ hfield => singleLine_name_of_mem_fields hfield)
      fun _ hfield _ hcode _ hline => huser _ (mem_codeLines_of_field hfield hcode hline)
  rw [method_share]
  exact .documented
    (onlyComments_visitDoc config ⟨comments, config⟩ (spaced_ofLevel ..) .void
      config.inlineAcceptMethods hname)
    ⟨singleLine_visitSignature hconfig .void hname, hbody⟩

/-- The members of a visitor interface, given those for the node types. -/
theorem members_interface (hconfig : config.SingleLine) (flavor : Flavor) {visits : Code}
    {names : List String}
    (h : Members comments (declarationOf (.ofLevel config.indentAmount 1)) Text.SingleLine visits
      (names.map (flavor.visitSignature config))) :
    Members comments (declarationOf (.ofLevel config.indentAmount 1)) Text.SingleLine
      ((config.supportNames.flatMap fun node =>
        flavor.supportVisitDoc config (.ofLevel config.indentAmount 1) node ++
          flavor.visitDeclaration config (.ofLevel config.indentAmount 1) node) ++ visits)
      (visitSignatures config names flavor) := by
  have hsupports : Members comments (declarationOf (.ofLevel config.indentAmount 1)) Text.SingleLine
      (config.supportNames.flatMap fun node =>
        flavor.supportVisitDoc config (.ofLevel config.indentAmount 1) node ++
          flavor.visitDeclaration config (.ofLevel config.indentAmount 1) node)
      (config.supportNames.map (flavor.visitSignature config)) :=
    .flatMap fun node hnode => .documented
      (onlyComments_supportVisitDoc hconfig (spaced_ofLevel ..) flavor hnode)
      (singleLine_visitSignature hconfig flavor (hconfig.supportName hnode))
  rw [visitSignatures, List.map_append]
  exact hsupports.append h

theorem isInterface_interfaceAround (hconfig : config.SingleLine) (flavor : Flavor)
    {visits : Code} {names : List String}
    (h : Members comments (declarationOf (.ofLevel config.indentAmount 1)) Text.SingleLine visits
      (names.map (flavor.visitSignature config))) :
    IsInterface config comments (renderCode (interfaceAround config flavor visits))
      (visitSignatures config names flavor) := by
  refine ⟨flavor.genericName config, _, singleLine_genericName hconfig flavor,
    members_interface hconfig flavor h, ?_⟩
  simp only [interfaceAround, List.cons_append, List.append_assoc]

theorem singleLine_interfaceAround (hconfig : config.SingleLine)
    (hcomments : ∀ comment ∈ comments, Text.SingleLine comment.text) (flavor : Flavor)
    {visits : Code} {names : List String}
    (h : Members comments (declarationOf (.ofLevel config.indentAmount 1)) Text.SingleLine visits
      (names.map (flavor.visitSignature config))) :
    ∀ line ∈ interfaceAround config flavor visits, line.SingleLine := by
  have hheading :
      Text.SingleLine ("public interface " ++ flavor.genericName config ++ " \x7b") := by
    simp +decide [singleLine_genericName hconfig flavor]
  have hmembers := (members_interface hconfig flavor h).singleLine hcomments
    fun _ => singleLine_of_mem_declarationOf (spaced_ofLevel ..)
  have hclosing : (Indent.ofLevel config.indentAmount 0).closing.SingleLine :=
    (singleLine_line (spaced_ofLevel ..)).2 (by decide)
  rw [interfaceAround, List.cons_append, List.cons_append, List.cons_append, List.cons_append]
  exact List.forall_mem_cons.2 ⟨(singleLine_line (spaced_ofLevel ..)).2 hheading,
    List.forall_mem_cons.2 ⟨singleLine_emptyLine,
      List.forall_mem_append.2 ⟨hmembers, List.forall_mem_singleton.2 hclosing⟩⟩⟩

/-- The method of the depth-first visitor for a support class. -/
def supportVisit (config : Config) (node : String) : Method where
  signature := Flavor.void.visitSignature config node
  body := supportVisitBody config node

theorem override_supportVisit (config : Config) (indent : Indent) (node : String) :
    (supportVisit config node).override indent =
      depthFirstMethod config indent node (supportVisitBody config node) := rfl

/-- The members of the depth-first visitor, given those for the node types. -/
theorem members_depthFirst (hconfig : config.SingleLine) {visits : Code} {methods : List Method}
    (h : Members comments (Method.override (.ofLevel config.indentAmount 1))
      (Method.Proper comments user) visits methods) :
    Members comments (Method.override (.ofLevel config.indentAmount 1))
      (Method.Proper comments user)
      ((config.supportNames.flatMap fun node =>
        Flavor.void.supportVisitDoc config (.ofLevel config.indentAmount 1) node ++
          depthFirstMethod config (.ofLevel config.indentAmount 1) node
            (supportVisitBody config node)) ++ visits)
      (config.supportNames.map (supportVisit config) ++ methods) := by
  refine .append (.flatMap fun node hnode => ?_) h
  rw [← override_supportVisit]
  exact .documented
    (onlyComments_supportVisitDoc hconfig (spaced_ofLevel ..) .void hnode)
    ⟨singleLine_visitSignature hconfig .void (hconfig.supportName hnode),
      inBody_supportVisitBody hconfig node⟩

theorem isImplementation_depthFirstAround (hconfig : config.SingleLine) {visits : Code}
    {methods : List Method}
    (h : Members comments (Method.override (.ofLevel config.indentAmount 1))
      (Method.Proper comments user) visits methods) :
    IsImplementation config comments user (renderCode (depthFirstAround config visits))
      (config.supportNames.map (supportVisit config) ++ methods) := by
  refine ⟨depthFirstName ++ " implements " ++ Flavor.void.name config, _, ?_,
    members_depthFirst hconfig h, ?_⟩
  · simp +decide [hconfig.name .void]
  · simp only [depthFirstAround, String.append_assoc, List.cons_append, List.append_assoc]

theorem singleLine_depthFirstAround (hconfig : config.SingleLine)
    (hcomments : ∀ comment ∈ comments, Text.SingleLine comment.text) {visits : Code}
    {methods : List Method}
    (h : Members comments (Method.override (.ofLevel config.indentAmount 1))
      (Method.Proper comments user) visits methods) :
    ∀ line ∈ depthFirstAround config visits, line.SingleLine := by
  have hheading : Text.SingleLine ("public class " ++ depthFirstName ++ " implements " ++
      Flavor.void.name config ++ " \x7b") := by
    simp +decide [hconfig.name .void]
  have hmembers := (members_depthFirst hconfig h).singleLine hcomments
    fun _ => singleLine_of_mem_override hcomments (spaced_ofLevel ..)
  have hclosing : (Indent.ofLevel config.indentAmount 0).closing.SingleLine :=
    (singleLine_line (spaced_ofLevel ..)).2 (by decide)
  rw [depthFirstAround, List.cons_append, List.cons_append, List.cons_append, List.cons_append]
  exact List.forall_mem_cons.2 ⟨(singleLine_line (spaced_ofLevel ..)).2 hheading,
    List.forall_mem_cons.2 ⟨singleLine_emptyLine,
      List.forall_mem_append.2 ⟨hmembers, List.forall_mem_singleton.2 hclosing⟩⟩⟩

variable {productions : List Production}

theorem isInterface_interfaceUnit (hconfig : config.SingleLine)
    (hnames : ∀ production ∈ productions, Text.SingleLine (config.typeName production.name))
    (flavor : Flavor) :
    IsInterface config comments
      (interfaceUnit config (productions.map (share config comments)) flavor).text
      (visitSignatures config (productions.map (config.typeName ·.name)) flavor) := by
  refine isInterface_interfaceAround hconfig flavor ?_
  rw [List.flatMap_map, List.map_map]
  exact .flatMap fun production hproduction =>
    members_declaration_share hconfig flavor (hnames production hproduction)

/-- The methods of the depth-first visitor. -/
def depthFirstVisits (config : Config) (grammar : Grammar) : List Method :=
  config.supportNames.map (supportVisit config) ++
    grammar.productions.map (depthFirstVisit config grammar.comments)

theorem map_signature_depthFirstVisits (config : Config) (grammar : Grammar) :
    (depthFirstVisits config grammar).map Method.signature =
      visitSignatures config (grammar.productions.map (config.typeName ·.name)) .void := by
  rw [depthFirstVisits, visitSignatures, List.map_append, List.map_append, List.map_map,
    List.map_map, List.map_map]
  refine congrArg _ (List.map_congr_left fun production _ => ?_)
  exact congrArg (Flavor.void.visitSignature config) (name_lower config production)

theorem isImplementation_depthFirstUnit {grammar : Grammar} (hconfig : config.SingleLine)
    (hnames : ∀ production ∈ grammar.productions,
      Text.SingleLine (config.typeName production.name)) :
    IsImplementation config grammar.comments grammar.codeLines
      (depthFirstUnit config (grammar.productions.map (share config grammar.comments))).text
      (depthFirstVisits config grammar) := by
  refine isImplementation_depthFirstAround hconfig ?_
  rw [List.flatMap_map]
  exact .flatMap fun production hproduction =>
    members_method_share hconfig (hnames production hproduction) fun line hline =>
      List.mem_flatMap.2 ⟨production, hproduction, hline⟩

end Visitors

/-! ## The members of a node -/

/-- A method of a node. Its body is a single statement. -/
def Method.ofStatement (config : Config) (signature statement : String) : Method where
  signature
  body := [(Indent.ofLevel config.indentAmount 2).line statement]

/-- An `accept`: it leads to the visit of the visitor that it is given. -/
def Method.accept (config : Config) (flavor : Flavor) : Method :=
  .ofStatement config (flavor.acceptSignature config) flavor.forward

/-- Sets the parent. -/
def Method.setParent (config : Config) : Method :=
  .ofStatement config ("void setParent(final " ++ config.nodeInterface ++ " n)") "parent = n;"

/-- Gets the parent. -/
def Method.getParent (config : Config) : Method :=
  .ofStatement config (config.nodeInterface ++ " getParent()") "return parent;"

/-- What every node implements: an `accept` for each flavor and, if there are pointers to parents,
the accessors of the parent. -/
def nodeMethods (config : Config) : List Method :=
  Flavor.all.map (Method.accept config) ++
    if config.parentPointer then [.setParent config, .getParent config] else []

section Nodes

variable {config : Config}

theorem map_signature_nodeMethods (config : Config) :
    (nodeMethods config).map Method.signature = interfaceSignatures config := by
  unfold nodeMethods interfaceSignatures
  cases config.parentPointer <;> rfl

theorem proper_accept (hconfig : config.SingleLine) (flavor : Flavor) :
    (Method.accept config flavor).Proper [] [] := by
  have hsingle : Text.SingleLine flavor.forward := by cases flavor <;> decide
  have hstarts : Text.isAnnotation flavor.forward.toList = false := by cases flavor <;> decide
  exact ⟨singleLine_acceptSignature hconfig flavor,
    List.forall_mem_singleton.2 (inBody_line (spaced_ofLevel ..) hsingle hstarts)⟩

theorem proper_setParent (hconfig : config.SingleLine) :
    (Method.setParent config).Proper [] [] := by
  have hsingle : Text.SingleLine ("void setParent(final " ++ config.nodeInterface ++ " n)") := by
    simp +decide [hconfig.nodeInterface]
  have hbody : ((Indent.ofLevel config.indentAmount 2).line "parent = n;").InBody [] [] :=
    inBody_line (spaced_ofLevel ..) (by decide) (by decide)
  exact ⟨hsingle, List.forall_mem_singleton.2 hbody⟩

theorem proper_getParent (hconfig : config.SingleLine) :
    (Method.getParent config).Proper [] [] := by
  have hsingle : Text.SingleLine (config.nodeInterface ++ " getParent()") := by
    simp +decide [hconfig.nodeInterface]
  have hbody : ((Indent.ofLevel config.indentAmount 2).line "return parent;").InBody [] [] :=
    inBody_line (spaced_ofLevel ..) (by decide) (by decide)
  exact ⟨hsingle, List.forall_mem_singleton.2 hbody⟩

theorem acceptMethod_eq (config : Config) (flavor : Flavor) :
    flavor.acceptMethod config =
      codeIf config.javadocComments (flavor.acceptDoc config (.ofLevel config.indentAmount 1)) ++
        (Method.accept config flavor).override (.ofLevel config.indentAmount 1) := rfl

theorem parentAccessors_eq (config : Config) :
    parentAccessors config =
      codeIf config.javadocComments
          ((Indent.ofLevel config.indentAmount 1).doc "Sets the parent node."
            ["@param n - the parent node"]) ++
        (Method.setParent config).override (.ofLevel config.indentAmount 1) ++
      codeIf config.javadocComments
          ((Indent.ofLevel config.indentAmount 1).doc "Gets the parent node."
            ["@return the parent node"]) ++
        (Method.getParent config).override (.ofLevel config.indentAmount 1) := rfl

/-- What all node classes end with, but for the closing brace. -/
def dispatchBlock (config : Config) : Code :=
  Flavor.all.flatMap (Flavor.acceptMethod config) ++
    codeIf config.parentPointer (parentAccessors config)

theorem members_dispatchBlock (hconfig : config.SingleLine) :
    Members [] (Method.override (.ofLevel config.indentAmount 1)) (Method.Proper [] [])
      (dispatchBlock config) (nodeMethods config) := by
  have hindent := spaced_ofLevel config.indentAmount 1
  refine .append (.flatMap fun flavor _ => ?_) ?_
  · rw [acceptMethod_eq]
    exact .documented ((onlyComments_acceptDoc hconfig hindent flavor).codeIf _)
      (proper_accept hconfig flavor)
  · cases config.parentPointer with
    | false => exact .nil
    | true =>
        rw [codeIf_true, parentAccessors_eq, List.append_assoc]
        exact .append
          (.documented ((onlyComments_setParentDoc hindent).codeIf _) (proper_setParent hconfig))
          (.documented ((onlyComments_getParentDoc hindent).codeIf _) (proper_getParent hconfig))

theorem nodeInterface_eq (config : Config) :
    nodeInterface config =
      (Indent.ofLevel config.indentAmount 0).opening
          ("public interface " ++ config.nodeInterface) ::
        emptyLine ::
        (interfaceSignatures config).flatMap (declarationOf (.ofLevel config.indentAmount 1)) ++
        [(Indent.ofLevel config.indentAmount 0).closing] := rfl

theorem isInterface_nodeInterface (hconfig : config.SingleLine) :
    IsInterface config [] (nodeInterfaceUnit config).text
      ((nodeMethods config).map Method.signature) := by
  have hsignatures : ∀ signature ∈ interfaceSignatures config, Text.SingleLine signature := by
    rw [← map_signature_nodeMethods]
    exact List.forall_mem_map.2 fun method hmethod =>
      ((members_dispatchBlock hconfig).forall_proper method hmethod).signature
  rw [map_signature_nodeMethods]
  have hmembers : Members [] (declarationOf (.ofLevel config.indentAmount 1)) Text.SingleLine
      ((interfaceSignatures config).flatMap (declarationOf (.ofLevel config.indentAmount 1)))
      ((interfaceSignatures config).map id) :=
    .flatMap fun signature hsignature => .single (hsignatures signature hsignature)
  rw [List.map_id] at hmembers
  refine ⟨config.nodeInterface, _, hconfig.nodeInterface, hmembers, ?_⟩
  rw [nodeInterfaceUnit, nodeInterface_eq]

/-- Every node class ends with the dispatch block and the closing brace. -/
theorem exists_front_of_mem {productions : List Production} {comments : List Comment}
    {unit : CompilationUnit}
    (h : unit ∈ (productions.map (share config comments)).map Share.nodeType ++
      supportUnits config) :
    ∃ front, unit.text = front ++
      renderCode (dispatchBlock config ++ [(Indent.ofLevel config.indentAmount 0).closing]) := by
  -- Node types and support classes are written by different emitters, but both leave the end to
  -- `dispatchCode`.
  have hends : ∀ front : Code, renderCode (front ++ dispatchCode config) = renderCode front ++
      renderCode (dispatchBlock config ++ [(Indent.ofLevel config.indentAmount 0).closing]) :=
    fun front => renderCode_append ..
  rcases List.mem_append.1 h with h | h
  · rw [List.map_map] at h
    obtain ⟨production, -, rfl⟩ := List.mem_map.1 h
    exact ⟨_, hends _⟩
  · obtain ⟨support, -, rfl⟩ := List.mem_map.1 h
    exact ⟨_, hends _⟩

end Nodes

/-! ## The members of an output -/

/-- The unit is an interface of this name and declares methods with these signatures. They can be
read off its lines, unless a comment has a line feed in it. -/
structure CompilationUnit.Declares (config : Config) (comments : List Comment)
    (unit : CompilationUnit) (name : String) (signatures : List String) : Prop where
  name_eq : unit.name = name
  isInterface : IsInterface config comments unit.text signatures
  declared_eq : (∀ comment ∈ comments, Text.SingleLine comment.text) →
    Text.declared unit.text = signatures

section Signatures

variable (config : Config)

/-- The visits of the four flavors, as they are written. -/
theorem visitSignature_eq (node : String) :
    Flavor.retArgu.visitSignature config node =
      config.retType ++ " visit(final " ++ node ++ " n, " ++ config.argument ++ ")" ∧
    Flavor.ret.visitSignature config node =
      config.retType ++ " visit(final " ++ node ++ " n)" ∧
    Flavor.voidArgu.visitSignature config node =
      "void visit(final " ++ node ++ " n, " ++ config.argument ++ ")" ∧
    Flavor.void.visitSignature config node = "void visit(final " ++ node ++ " n)" := by
  refine ⟨?_, ?_, ?_, ?_⟩
  all_goals
    apply String.ext
    simp [Flavor.visitSignature, Flavor.returnType, Flavor.returns, Flavor.furtherParameter,
      Flavor.takesArgument]

/-- The ways to them, as they are written. -/
theorem acceptSignature_eq :
    Flavor.retArgu.acceptSignature config =
      "<" ++ config.retType ++ ", " ++ config.arguType ++ "> " ++ config.retType ++
        " accept(final " ++ config.retArguVisitor ++ "<" ++ config.retType ++ ", " ++
        config.arguType ++ "> vis, " ++ config.argument ++ ")" ∧
    Flavor.ret.acceptSignature config =
      "<" ++ config.retType ++ "> " ++ config.retType ++ " accept(final " ++
        config.retVisitor ++ "<" ++ config.retType ++ "> vis)" ∧
    Flavor.voidArgu.acceptSignature config =
      "<" ++ config.arguType ++ "> void accept(final " ++ config.voidArguVisitor ++ "<" ++
        config.arguType ++ "> vis, " ++ config.argument ++ ")" ∧
    Flavor.void.acceptSignature config = "void accept(final " ++ config.voidVisitor ++ " vis)" := by
  refine ⟨?_, ?_, ?_, ?_⟩
  all_goals
    apply String.ext
    simp [Flavor.acceptSignature, Flavor.returnType, Flavor.returns, Flavor.genericName,
      Flavor.name, Flavor.generics, Flavor.furtherParameter, Flavor.takesArgument]

/-- So these are the methods of every node. -/
theorem nodeMethods_eq :
    nodeMethods config = [
      .ofStatement config
        ("<" ++ config.retType ++ ", " ++ config.arguType ++ "> " ++ config.retType ++
          " accept(final " ++ config.retArguVisitor ++ "<" ++ config.retType ++ ", " ++
          config.arguType ++ "> vis, " ++ config.argument ++ ")")
        "return vis.visit(this, argu);",
      .ofStatement config
        ("<" ++ config.retType ++ "> " ++ config.retType ++ " accept(final " ++
          config.retVisitor ++ "<" ++ config.retType ++ "> vis)")
        "return vis.visit(this);",
      .ofStatement config
        ("<" ++ config.arguType ++ "> void accept(final " ++ config.voidArguVisitor ++ "<" ++
          config.arguType ++ "> vis, " ++ config.argument ++ ")")
        "vis.visit(this, argu);",
      .ofStatement config ("void accept(final " ++ config.voidVisitor ++ " vis)")
        "vis.visit(this);"] ++
      if config.parentPointer then [
        .ofStatement config ("void setParent(final " ++ config.nodeInterface ++ " n)")
          "parent = n;",
        .ofStatement config (config.nodeInterface ++ " getParent()") "return parent;"]
      else [] := by
  obtain ⟨hretArgu, hret, hvoidArgu, hvoid⟩ := acceptSignature_eq config
  simp only [nodeMethods, Flavor.all, List.map_cons, List.map_nil, Method.accept, hretArgu, hret,
    hvoidArgu, hvoid]
  rfl

end Signatures

end TreeSmith

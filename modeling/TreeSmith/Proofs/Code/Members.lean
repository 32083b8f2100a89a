import Mathlib.Data.List.Basic
import TreeSmith.Proofs.Code.Comments

/-!
# TreeSmith.Proofs.Code.Members

**A grammar for the text of a unit.** Between a heading and a closing brace there are members, each
with its documentation (`Members`). The members of an interface are declarations, those of a class
are methods that override. Nothing else can stand between them, and no line of a method's body can
start another method, unless the user wrote it.

If no comment has a line feed in it, a unit is read by its lines: an interface declares what its
lines declare (`IsInterface.declared_eq`), and a class overrides what is written behind its
annotations (`IsImplementation.overridden_eq`).
-/

namespace TreeSmith

/-! ## Members -/

/-- Code that consists of these members, one after the other, and of comments on them. -/
inductive Members {α : Type} (comments : List Comment) (layout : α → Code) (Proper : α → Prop) :
    Code → List α → Prop
  | nil : Members comments layout Proper [] []
  | comment {line : CodeLine} {code : Code} {members : List α} (hline : line.IsComment comments)
      (hcode : Members comments layout Proper code members) :
      Members comments layout Proper (line :: code) members
  | member {a : α} {code : Code} {members : List α} (ha : Proper a)
      (hcode : Members comments layout Proper code members) :
      Members comments layout Proper (layout a ++ code) (a :: members)

namespace Members

variable {α : Type} {comments : List Comment} {layout : α → Code} {Proper : α → Prop}

theorem append {a b : Code} {first second : List α}
    (ha : Members comments layout Proper a first) (hb : Members comments layout Proper b second) :
    Members comments layout Proper (a ++ b) (first ++ second) := by
  induction ha with
  | nil => exact hb
  | comment hline _ ih => exact .comment hline ih
  | member hproper _ ih =>
      rw [List.append_assoc]
      exact .member hproper ih

theorem ofComments {code : Code} (h : OnlyComments comments code) :
    Members comments layout Proper code [] := by
  induction code with
  | nil => exact .nil
  | cons line code ih =>
      obtain ⟨hline, hcode⟩ := List.forall_mem_cons.1 h
      exact .comment hline (ih hcode)

theorem single {a : α} (ha : Proper a) : Members comments layout Proper (layout a) [a] := by
  have hmember : Members comments layout Proper (layout a ++ []) [a] := .member ha .nil
  rwa [List.append_nil] at hmember

/-- A member with its documentation in front. -/
theorem documented {doc : Code} {a : α} (hdoc : OnlyComments comments doc) (ha : Proper a) :
    Members comments layout Proper (doc ++ layout a) [a] :=
  (ofComments hdoc).append (single ha)

theorem flatMap {β : Type} {l : List β} {write : β → Code} {read : β → α}
    (h : ∀ b ∈ l, Members comments layout Proper (write b) [read b]) :
    Members comments layout Proper (l.flatMap write) (l.map read) := by
  induction l with
  | nil => exact .nil
  | cons b l ih =>
      obtain ⟨hfirst, hrest⟩ := List.forall_mem_cons.1 h
      exact hfirst.append (ih hrest)

theorem forall_proper {code : Code} {members : List α}
    (h : Members comments layout Proper code members) : ∀ a ∈ members, Proper a := by
  induction h with
  | nil => exact List.forall_mem_nil _
  | comment _ _ ih => exact ih
  | member hproper _ ih => exact List.forall_mem_cons.2 ⟨hproper, ih⟩

end Members

/-! ## Interfaces and classes -/

/-- The declaration of a method. -/
def declarationOf (indent : Indent) (signature : String) : Code :=
  indent.paragraph ("public " ++ signature ++ ";")

/-- A method with its body. -/
structure Method where
  signature : String
  body : Code

/-- A method that overrides the one with its signature. -/
def Method.override (indent : Indent) (method : Method) : Code :=
  indent.line "@Override" :: indent.member ("public " ++ method.signature) method.body

namespace Text

/-- Does the line start, behind its spaces, like an annotation? -/
def isAnnotation (line : List Char) : Bool :=
  (unindent line).head? == some '@'

end Text

/-- The line is a statement, a comment, or the user's code. Only the latter may be an annotation,
such as the one that a method starts with. -/
def CodeLine.InBody (comments : List Comment) (user : List String) (line : CodeLine) : Prop :=
  line.IsComment comments ∨
    line.SingleLine ∧ (String.ofList (Text.unindent line.chars) ∈ user ∨
      Text.isAnnotation line.chars = false)

/-- The method has a signature on one line, and nothing in its body starts another method. -/
structure Method.Proper (comments : List Comment) (user : List String) (method : Method) :
    Prop where
  signature : Text.SingleLine method.signature
  body : ∀ line ∈ method.body, line.InBody comments user

/-- The text is that of an interface which declares methods with these signatures. -/
def IsInterface (config : Config) (comments : List Comment) (text : String)
    (signatures : List String) : Prop :=
  ∃ heading code, Text.SingleLine heading ∧
    Members comments (declarationOf (.ofLevel config.indentAmount 1)) Text.SingleLine code
      signatures ∧
    text = renderCode
      ((Indent.ofLevel config.indentAmount 0).opening ("public interface " ++ heading) ::
        emptyLine :: code ++ [(Indent.ofLevel config.indentAmount 0).closing])

/-- The text is that of a class which overrides these methods, with this user code in them. -/
def IsImplementation (config : Config) (comments : List Comment) (user : List String)
    (text : String) (methods : List Method) : Prop :=
  ∃ heading code, Text.SingleLine heading ∧
    Members comments (Method.override (.ofLevel config.indentAmount 1))
      (Method.Proper comments user) code methods ∧
    text = renderCode
      ((Indent.ofLevel config.indentAmount 0).opening ("public class " ++ heading) ::
        emptyLine :: code ++ [(Indent.ofLevel config.indentAmount 0).closing])

/-! ## Reading members back -/

namespace Text

/-- What stands in the line between an opening and a closing part. -/
def between? (opening closing : String) (line : List Char) : Option String :=
  ((line.dropPrefix? opening.toList).bind (·.dropSuffix? closing.toList)).map String.ofList

theorem between?_append (opening inside closing : String) :
    between? opening closing (opening ++ inside ++ closing).toList = some inside := by
  have hopening : (opening ++ inside ++ closing).toList.dropPrefix? opening.toList =
      some (inside ++ closing).toList := by
    rw [String.append_assoc, String.toList_append]
    exact List.dropPrefix?_append_of_beq _ BEq.rfl
  have hclosing : (inside ++ closing).toList.dropSuffix? closing.toList = some inside.toList := by
    rw [List.dropSuffix?_eq_some_iff, String.toList_append]
    exact ⟨closing.toList, rfl, BEq.rfl⟩
  rw [between?, hopening, Option.bind_some, hclosing, Option.map_some, String.ofList_toList]

theorem between?_eq_some {opening closing : String} {line : List Char} {inside : String}
    (h : between? opening closing line = some inside) :
    line = opening.toList ++ inside.toList ++ closing.toList := by
  obtain ⟨found, hfound, rfl⟩ := Option.map_eq_some_iff.1 h
  obtain ⟨rest, hopening, hclosing⟩ := Option.bind_eq_some_iff.1 hfound
  obtain ⟨first, rfl, hfirst⟩ := List.dropPrefix?_eq_some_iff.1 hopening
  obtain ⟨last, rfl, hlast⟩ := List.dropSuffix?_eq_some_iff.1 hclosing
  rw [eq_of_beq hfirst, eq_of_beq hlast, String.toList_ofList, List.append_assoc]

/-- The signature that a line declares. -/
def declared? (line : List Char) : Option String :=
  between? "public " ";" (unindent line)

/-- The signatures that are declared in a text. -/
def declared (text : String) : List String :=
  (lines text.toList).filterMap declared?

/-- The signatures behind the annotations in some lines. -/
def overriddenIn : List (List Char) → List String
  | [] => []
  | line :: rest =>
    if unindent line = "@Override".toList then
      (rest.head?.bind fun next => between? "public " " \x7b" (unindent next)).toList ++
        overriddenIn rest
    else overriddenIn rest

/-- The signatures of the methods in a text that override others. -/
def overridden (text : String) : List String :=
  overriddenIn (lines text.toList)

theorem declared?_eq_none_of_head? {line : List Char} (h : (unindent line).head? ≠ some 'p') :
    declared? line = none := by
  refine Option.eq_none_iff_forall_ne_some.2 fun signature hsome => h ?_
  rw [between?_eq_some hsome]
  rfl

theorem declared?_eq_none_of_getLast? {line : List Char} (h : line.getLast? ≠ some ';') :
    declared? line = none := by
  refine Option.eq_none_iff_forall_ne_some.2 fun signature hsome => h ?_
  have hline : line = line.takeWhile (· == ' ') ++ unindent line :=
    List.takeWhile_append_dropWhile.symm
  rw [hline, between?_eq_some hsome, ← List.append_assoc, List.getLast?_append]
  rfl

theorem head?_unindent_of_isCommentLine {line : List Char} (h : isCommentLine line = true) :
    (unindent line).head? = some '/' ∨ (unindent line).head? = some '*' := by
  rw [isCommentLine] at h
  cases hline : unindent line with
  | nil => simp [hline] at h
  | cons c cs =>
      have hmarks : ('/' = c ∧ ['*', '*'] <+: cs) ∨ '*' = c ∨ '/' = c ∧ ['/'] <+: cs := by
        simpa [hline] using h
      rcases hmarks with ⟨rfl, -⟩ | rfl | ⟨rfl, -⟩
      · exact Or.inl rfl
      · exact Or.inr rfl
      · exact Or.inl rfl

theorem overriddenIn_cons_of_ne {line : List Char} (h : unindent line ≠ "@Override".toList)
    (rest : List (List Char)) : overriddenIn (line :: rest) = overriddenIn rest := by
  rw [overriddenIn, if_neg h]

theorem overriddenIn_append_of_forall_ne {front : List (List Char)}
    (h : ∀ line ∈ front, unindent line ≠ "@Override".toList) (rest : List (List Char)) :
    overriddenIn (front ++ rest) = overriddenIn rest := by
  induction front with
  | nil => rfl
  | cons line front ih =>
      obtain ⟨hline, hfront⟩ := List.forall_mem_cons.1 h
      rw [List.cons_append, overriddenIn_cons_of_ne hline, ih hfront]

end Text

section Reading

variable {comments : List Comment} {user : List String} {indent : Indent}

theorem CodeLine.IsComment.declared?_eq_none {line : CodeLine} (h : line.IsComment comments) :
    Text.declared? line.chars = none := by
  refine Text.declared?_eq_none_of_head? ?_
  rcases Text.head?_unindent_of_isCommentLine h.marked with h | h <;> simp [h]

theorem CodeLine.IsComment.ne_override {line : CodeLine} (h : line.IsComment comments) :
    Text.unindent line.chars ≠ "@Override".toList := by
  intro heq
  rcases Text.head?_unindent_of_isCommentLine h.marked with h | h <;> simp [heq] at h

/-- Members and the comments on them are written on single lines if the comments are. -/
theorem Members.singleLine {α : Type} {layout : α → Code} {Proper : α → Prop} {code : Code}
    {members : List α} (h : Members comments layout Proper code members)
    (hcomments : ∀ comment ∈ comments, Text.SingleLine comment.text)
    (hlayout : ∀ a, Proper a → ∀ line ∈ layout a, line.SingleLine) :
    ∀ line ∈ code, line.SingleLine := by
  induction h with
  | nil => exact List.forall_mem_nil _
  | comment hline _ ih => exact List.forall_mem_cons.2 ⟨hline.quotes.not_mem hcomments, ih⟩
  | member hproper _ ih => exact List.forall_mem_append.2 ⟨hlayout _ hproper, ih⟩

/-- Without line feeds in the comments, a line of a body is one line of text. -/
theorem CodeLine.InBody.singleLine
    (hcomments : ∀ comment ∈ comments, Text.SingleLine comment.text) {line : CodeLine}
    (h : line.InBody comments user) : line.SingleLine := by
  rcases h with h | h
  · exact h.quotes.not_mem hcomments
  · exact h.1

theorem CodeLine.InBody.ne_override (huser : "@Override" ∉ user) {line : CodeLine}
    (h : line.InBody comments user) : Text.unindent line.chars ≠ "@Override".toList := by
  rcases h with h | ⟨-, h | h⟩
  · exact h.ne_override
  · intro heq
    rw [heq, String.ofList_toList] at h
    exact huser h
  · intro heq
    rw [Text.isAnnotation, heq] at h
    exact absurd h (by decide)

theorem unindent_public (hindent : indent.Spaced) (text : String) :
    Text.unindent (indent.line ("public " ++ text)).chars = ("public " ++ text).toList := by
  rw [unindent_line hindent, String.toList_append]
  rfl

theorem singleLine_of_mem_declarationOf (hindent : indent.Spaced) {signature : String}
    (h : Text.SingleLine signature) : ∀ line ∈ declarationOf indent signature, line.SingleLine := by
  refine List.forall_mem_cons.2 ⟨(singleLine_line hindent).2 ?_,
    List.forall_mem_singleton.2 singleLine_emptyLine⟩
  simp +decide [h]

/-- The declarations among some members are those that are read off their lines. -/
theorem filterMap_declared?_of_members
    (hcomments : ∀ comment ∈ comments, Text.SingleLine comment.text) (hindent : indent.Spaced)
    {code : Code} {signatures : List String}
    (h : Members comments (declarationOf indent) Text.SingleLine code signatures) :
    (textLines code).filterMap Text.declared? = signatures := by
  -- A comment declares nothing, and a member declares its own signature.
  induction h with
  | nil => rfl
  | comment hline _ ih =>
      rw [textLines_cons, Text.lines_of_not_mem (hline.quotes.not_mem hcomments),
        List.filterMap_append, ih]
      simp [hline.declared?_eq_none]
  | @member signature code signatures hsignature _ ih =>
      have hread : Text.declared? (indent.line ("public " ++ signature ++ ";")).chars =
          some signature := by
        rw [Text.declared?, String.append_assoc, unindent_public hindent, ← String.append_assoc,
          Text.between?_append]
      rw [textLines_append, textLines_of_singleLine
          (singleLine_of_mem_declarationOf hindent hsignature), List.filterMap_append, ih,
        declarationOf, Indent.paragraph]
      simp only [List.map_cons, List.map_nil, List.filterMap_cons, hread]
      rfl

theorem singleLine_of_mem_override
    (hcomments : ∀ comment ∈ comments, Text.SingleLine comment.text) (hindent : indent.Spaced)
    {method : Method} (h : method.Proper comments user) :
    ∀ line ∈ method.override indent, line.SingleLine := by
  have hheader : (indent.opening ("public " ++ method.signature)).SingleLine :=
    (singleLine_line hindent).2 (by simp +decide [h.signature])
  refine List.forall_mem_cons.2 ⟨(singleLine_line hindent).2 (by decide), ?_⟩
  refine List.forall_mem_cons.2 ⟨hheader, List.forall_mem_append.2 ⟨?_, ?_⟩⟩
  · exact fun line hline => (h.body line hline).singleLine hcomments
  · exact List.forall_mem_cons.2 ⟨(singleLine_line hindent).2 (by decide),
      List.forall_mem_singleton.2 singleLine_emptyLine⟩

/-- Of the lines of a method, only the first one is read as the annotation of a method. -/
theorem overriddenIn_override (huser : "@Override" ∉ user) (hindent : indent.Spaced)
    {method : Method} (h : method.Proper comments user) (rest : List (List Char)) :
    Text.overriddenIn ((method.override indent).map CodeLine.chars ++ rest) =
      method.signature :: Text.overriddenIn rest := by
  have hannotation : Text.unindent (indent.line "@Override").chars = "@Override".toList := by
    rw [unindent_line hindent]
    rfl
  have hheader : Text.unindent (indent.opening ("public " ++ method.signature)).chars =
      ("public " ++ method.signature ++ " \x7b").toList := by
    rw [Indent.opening, String.append_assoc, unindent_public hindent]
  -- The reader goes on behind the annotation, and must not find another one in this method: not in
  -- the header, nor in the body, nor in the lines that close it.
  have hlater : ∀ line ∈ (indent.opening ("public " ++ method.signature) :: method.body ++
      [indent.closing, emptyLine]).map CodeLine.chars,
      Text.unindent line ≠ "@Override".toList := by
    refine List.forall_mem_map.2 (List.forall_mem_append.2 ⟨List.forall_mem_cons.2 ⟨?_, ?_⟩, ?_⟩)
    · rw [hheader, String.append_assoc, String.toList_append]
      intro heq
      have hhead : some 'p' = some '@' := congrArg List.head? heq
      exact absurd hhead (by decide)
    · exact fun line hline => (h.body line hline).ne_override huser
    · refine List.forall_mem_cons.2 ⟨?_, List.forall_mem_singleton.2 (by decide)⟩
      rw [Indent.closing, unindent_line hindent]
      decide
  rw [Method.override, Indent.member, List.map_cons, List.cons_append, Text.overriddenIn,
    if_pos hannotation, Text.overriddenIn_append_of_forall_ne hlater]
  simp only [List.map_cons, List.cons_append, List.head?_cons, Option.bind_some, hheader,
    Text.between?_append]
  rfl

/-- The methods among some members are those that are read off their lines. -/
theorem overriddenIn_of_members
    (hcomments : ∀ comment ∈ comments, Text.SingleLine comment.text)
    (huser : "@Override" ∉ user) (hindent : indent.Spaced) {code : Code} {methods : List Method}
    (h : Members comments (Method.override indent) (Method.Proper comments user) code methods)
    (rest : List (List Char)) :
    Text.overriddenIn (textLines code ++ rest) =
      methods.map Method.signature ++ Text.overriddenIn rest := by
  induction h with
  | nil => rfl
  | comment hline _ ih =>
      rw [textLines_cons, Text.lines_of_not_mem (hline.quotes.not_mem hcomments),
        List.append_assoc, List.singleton_append,
        Text.overriddenIn_cons_of_ne hline.ne_override, ih]
  | member hproper _ ih =>
      rw [textLines_append, textLines_of_singleLine
          (singleLine_of_mem_override hcomments hindent hproper),
        List.append_assoc, overriddenIn_override huser hindent hproper, ih, List.map_cons,
        List.cons_append]

/-- The lines of a unit, the heading at the start and the brace at the end among them. -/
theorem lines_unit (amount : Nat) {heading : String} (hheading : Text.SingleLine heading)
    (code : Code) :
    Text.lines (renderCode ((Indent.ofLevel amount 0).opening heading :: emptyLine :: code ++
        [(Indent.ofLevel amount 0).closing])).toList =
      ((Indent.ofLevel amount 0).opening heading).chars :: [] :: (textLines code ++
        [(Indent.ofLevel amount 0).closing.chars, []]) := by
  have hindent := spaced_ofLevel amount 0
  have hopening : ((Indent.ofLevel amount 0).opening heading).SingleLine :=
    (singleLine_line hindent).2 (by simp +decide [hheading])
  have hclosing : (Indent.ofLevel amount 0).closing.SingleLine :=
    (singleLine_line hindent).2 (by decide)
  have hempty : Text.lines emptyLine.chars = [[]] := rfl
  rw [lines_renderCode, textLines_append, textLines_cons, textLines_cons, textLines_cons,
    textLines_nil, Text.lines_of_not_mem hopening, Text.lines_of_not_mem hclosing, hempty]
  simp

/-- **An interface declares what its lines declare.** -/
theorem IsInterface.declared_eq {config : Config} {text : String} {signatures : List String}
    (hcomments : ∀ comment ∈ comments, Text.SingleLine comment.text)
    (h : IsInterface config comments text signatures) : Text.declared text = signatures := by
  obtain ⟨heading, code, hheading, hmembers, rfl⟩ := h
  have hindent := spaced_ofLevel config.indentAmount
  have hopening : Text.declared? ((Indent.ofLevel config.indentAmount 0).opening
      ("public interface " ++ heading)).chars = none := by
    obtain ⟨n, hchars⟩ := chars_line (hindent 0) ("public interface " ++ heading ++ " \x7b")
    -- A heading starts like a declaration, so that only its last character tells.
    refine Text.declared?_eq_none_of_getLast? fun heq => ?_
    rw [Indent.opening, hchars, String.toList_append, ← List.append_assoc,
      List.getLast?_append] at heq
    have hlast : some '\x7b' = some ';' := heq
    exact absurd hlast (by decide)
  have hclosing : Text.declared? (Indent.ofLevel config.indentAmount 0).closing.chars = none := by
    refine Text.declared?_eq_none_of_head? ?_
    rw [Indent.closing, unindent_line (hindent 0)]
    decide
  have hempty : Text.declared? [] = none := rfl
  rw [Text.declared, lines_unit _ (Text.singleLine_append.2 ⟨by decide, hheading⟩)]
  simp only [List.filterMap_cons, List.filterMap_append, List.filterMap_nil, hopening, hclosing,
    hempty, filterMap_declared?_of_members hcomments (hindent 1) hmembers, List.append_nil]

/-- **A class overrides what stands behind its annotations.** -/
theorem IsImplementation.overridden_eq {config : Config} {text : String} {methods : List Method}
    (hcomments : ∀ comment ∈ comments, Text.SingleLine comment.text)
    (huser : "@Override" ∉ user) (h : IsImplementation config comments user text methods) :
    Text.overridden text = methods.map Method.signature := by
  obtain ⟨heading, code, hheading, hmembers, rfl⟩ := h
  have hindent := spaced_ofLevel config.indentAmount
  have hopening : Text.unindent ((Indent.ofLevel config.indentAmount 0).opening
      ("public class " ++ heading)).chars ≠ "@Override".toList := by
    intro heq
    rw [Indent.opening, unindent_line (hindent 0), String.append_assoc, String.toList_append] at heq
    have hhead : some 'p' = some '@' := congrArg List.head? heq
    exact absurd hhead (by decide)
  have hclosing : Text.unindent (Indent.ofLevel config.indentAmount 0).closing.chars ≠
      "@Override".toList := by
    rw [Indent.closing, unindent_line (hindent 0)]
    decide
  rw [Text.overridden, lines_unit _ (Text.singleLine_append.2 ⟨by decide, hheading⟩),
    Text.overriddenIn_cons_of_ne hopening, Text.overriddenIn_cons_of_ne (by decide),
    overriddenIn_of_members hcomments huser (hindent 1) hmembers,
    Text.overriddenIn_cons_of_ne hclosing, Text.overriddenIn_cons_of_ne (by decide),
    Text.overriddenIn, List.append_nil]

end Reading

end TreeSmith

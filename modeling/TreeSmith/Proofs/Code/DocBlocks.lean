import TreeSmith.Grammar.Basic
import TreeSmith.NodeType.Frame
import TreeSmith.Proofs.Code.Lines
import TreeSmith.Proofs.Text.Closing

/-!
# TreeSmith.Proofs.Code.DocBlocks

**Documentation blocks, and where they end.** Blocks are read off lines: one starts with a line
`/**` and goes on to the next line `*/`, or it stands on a single line (`Text.docBlocks`). No other
line that the generator writes into a block is `*/`, so the last line of a block is the generator's
own.

What is inside a block is the generator's own words, or it is quoted from a comment of the grammar
(`DocLine`). The words have no end of a comment in them; a comment is quoted as it is. So a block
ends where it was closed, and not before, if and only if none of the comments that it shows has an
end of a comment in its text (`DocBlock.Sound.closedAtEnd_iff`).

Generated code is documented if it is blocks and, between them, lines that start no block
(`Documented`). The blocks that are read off it are then the ones that were written
(`DocumentedBy.docBlocks_append`).
-/

namespace TreeSmith

namespace Text

/-! ## Reading blocks -/

/-- The documentation blocks among some lines. The lines of a block that has been opened before may
be given. -/
def docBlocksFrom : Option (List (List Char)) → List (List Char) → List (List (List Char))
  | opened, [] => opened.toList
  | some block, line :: rest =>
    if unindent line = "*/".toList then (block ++ [line]) :: docBlocksFrom none rest
    else docBlocksFrom (some (block ++ [line])) rest
  | none, line :: rest =>
    if unindent line = "/**".toList then docBlocksFrom (some [line]) rest
    else if "/**".toList <+: unindent line then [line] :: docBlocksFrom none rest
    else docBlocksFrom none rest

/-- The documentation blocks among some lines, each with all its lines. One that is never closed
goes on to the end. -/
def docBlocks (lines : List (List Char)) : List (List (List Char)) :=
  docBlocksFrom none lines

/-- The block ends a comment at its own end, in its last line, and nowhere before. -/
def ClosedAtEnd (block : List (List Char)) : Prop :=
  ∃ front last, block = front ++ [last ++ "*/".toList] ∧ (∀ line ∈ front, ¬ Closes line) ∧
    ¬ Closes (last ++ ['*'])

/-- A line of the block says this text, perhaps with a note behind it. -/
def Shows (block : List (List Char)) (text : String) : Prop :=
  ∃ line ∈ block, ∃ note, unindent line = "* ".toList ++ (trim text).toList ++ note

theorem docBlocksFrom_plain {line : List Char} (h : ¬ "/**".toList <+: unindent line)
    (rest : List (List Char)) : docBlocksFrom none (line :: rest) = docBlocksFrom none rest := by
  have hopening : unindent line ≠ "/**".toList := fun heq => h (heq ▸ List.prefix_refl _)
  rw [docBlocksFrom, if_neg hopening, if_neg h]

theorem docBlocksFrom_short {line : List Char} (hstarts : "/**".toList <+: unindent line)
    (hmore : unindent line ≠ "/**".toList) (rest : List (List Char)) :
    docBlocksFrom none (line :: rest) = [line] :: docBlocksFrom none rest := by
  rw [docBlocksFrom, if_neg hmore, if_pos hstarts]

/-- A block goes on to the line that closes it. -/
theorem docBlocksFrom_opened {inside : List (List Char)} {closing : List Char}
    (hinside : ∀ line ∈ inside, unindent line ≠ "*/".toList)
    (hclosing : unindent closing = "*/".toList) (block rest : List (List Char)) :
    docBlocksFrom (some block) (inside ++ closing :: rest) =
      (block ++ inside ++ [closing]) :: docBlocksFrom none rest := by
  induction inside generalizing block with
  | nil => rw [List.nil_append, docBlocksFrom, if_pos hclosing, List.append_nil]
  | cons line inside ih =>
      obtain ⟨hline, hrest⟩ := List.forall_mem_cons.1 hinside
      rw [List.cons_append, docBlocksFrom, if_neg hline, ih hrest]
      simp

theorem closedAtEnd_append {front : List (List Char)} {last : List Char} :
    ClosedAtEnd (front ++ [last ++ "*/".toList]) ↔
      (∀ line ∈ front, ¬ Closes line) ∧ ¬ Closes (last ++ ['*']) := by
  constructor
  · rintro ⟨front', last', heq, hbefore⟩
    obtain ⟨rfl, hlast⟩ := List.append_inj' heq rfl
    obtain rfl := List.append_cancel_right (List.singleton_inj.1 hlast)
    exact hbefore
  · exact fun hbefore => ⟨front, last, rfl, hbefore⟩

/-- What stands in front of a text, spaces aside, stays in front of it. -/
theorem closes_of_unindent {line : List Char} (h : Closes (unindent line)) : Closes line := by
  have hsuffix : unindent line <:+ line := List.dropWhile_suffix _
  exact h.trans hsuffix.isInfix

/-- A text starts like its first part. -/
theorem head?_append {a b : String} {c : Char} (h : a.toList.head? = some c) :
    (a ++ b).toList.head? = some c := by
  rw [String.toList_append, List.head?_append, h, Option.some_or]

end Text

/-! ## Ends of comments in lines of code -/

section Lines

variable {indent : Indent}

theorem closes_line (hindent : indent.Spaced) (text : String) :
    Text.Closes (indent.line text).chars ↔ Text.Closes text.toList := by
  obtain ⟨n, hchars⟩ := chars_line hindent text
  rw [hchars]
  exact Text.closes_append_of_not_mem_star (by simp)

theorem unindent_docLine (hindent : indent.Spaced) (text : String) :
    Text.unindent (indent.docLine text).chars = "* ".toList ++ text.toList := by
  rw [Indent.docLine, unindent_line hindent, String.toList_append]
  rfl

theorem closes_docLine (hindent : indent.Spaced) (text : String) :
    Text.Closes (indent.docLine text).chars ↔ Text.Closes text.toList := by
  have hmark : ¬ Text.Closes [' ', '*', ' '] := by decide
  rw [Indent.docLine, closes_line hindent, String.toList_append, Text.closes_append]
  simp [hmark]

end Lines

/-! ## Blocks -/

/-- What stands in a line of a documentation block. -/
inductive DocLine where
  /-- The generator's own words. -/
  | words (text : String)
  /-- What a comment says, and what is noted behind it. -/
  | quoted (comment : Comment) (note : String)
  /-- The line that separates two parts of a block. -/
  | gap

namespace DocLine

/-- The line as it is written. -/
def code (indent : Indent) : DocLine → CodeLine
  | words text => indent.docLine text
  | quoted comment note => indent.docLine (Text.trim comment.text ++ note)
  | gap => indent.docGap

/-- The comment that the line quotes, if it does. -/
def comment? : DocLine → Option Comment
  | quoted comment _ => some comment
  | words _ => none
  | gap => none

/-- What the generator says itself has no end of a comment in it, and what it quotes is one of these
comments. -/
def Sound (comments : List Comment) : DocLine → Prop
  | words text => Text.Unclosed text
  | quoted comment note =>
    comment ∈ comments ∧ Text.Unclosed note ∧ note.toList.head? ≠ some '/'
  | gap => True

variable {comments : List Comment} {indent : Indent} {line : DocLine}

/-- Only by the comment that it quotes can a line end a block. -/
theorem Sound.closes_code_iff (h : line.Sound comments) (hindent : indent.Spaced) :
    Text.Closes (line.code indent).chars ↔
      ∃ comment ∈ line.comment?, Text.Closes comment.text.toList := by
  cases line with
  | words text =>
      refine (closes_docLine hindent text).trans ⟨fun hcloses => absurd hcloses h, ?_⟩
      rintro ⟨comment, hcomment, -⟩
      cases hcomment
  | gap =>
      refine (closes_line hindent " *").trans ⟨fun hcloses => absurd hcloses (by decide), ?_⟩
      rintro ⟨comment, hcomment, -⟩
      cases hcomment
  | quoted comment note =>
      obtain ⟨-, hnote, hhead⟩ := h
      have hclosed : ¬ Text.Closes note.toList := hnote
      have hquoted : Text.Closes (Text.trim comment.text ++ note).toList ↔
          Text.Closes comment.text.toList := by
        rw [String.toList_append, Text.closes_append, Text.closes_trim]
        simp [hclosed, hhead]
      refine (closes_docLine hindent _).trans (hquoted.trans ⟨fun hcloses => ?_, ?_⟩)
      · exact ⟨comment, rfl, hcloses⟩
      · rintro ⟨other, hother, hcloses⟩
        obtain rfl : comment = other := Option.some.inj hother
        exact hcloses

end DocLine

/-- A documentation block. -/
inductive DocBlock where
  | long (indent : Indent) (lines : List DocLine)
  /-- A block on one line. -/
  | short (indent : Indent) (text : String)

namespace DocBlock

/-- The block as it is written. -/
def code : DocBlock → Code
  | long indent lines => indent.docAround (lines.map (DocLine.code indent))
  | short indent text => [indent.shortDoc text]

/-- The comments that the block quotes. -/
def quotes : DocBlock → List Comment
  | long _ lines => lines.filterMap DocLine.comment?
  | short _ _ => []

/-- What the generator says itself has no end of a comment in it, and what it quotes are some of
these comments. -/
def Sound (comments : List Comment) : DocBlock → Prop
  | long indent lines => indent.Spaced ∧ ∀ line ∈ lines, line.Sound comments
  | short indent text => indent.Spaced ∧ Text.Unclosed text

variable {comments : List Comment} {block : DocBlock}

theorem Sound.mem_comments (h : block.Sound comments) :
    ∀ comment ∈ block.quotes, comment ∈ comments := by
  intro comment hcomment
  cases block with
  | short indent text => cases hcomment
  | long indent lines =>
      obtain ⟨line, hline, hquoted⟩ := List.mem_filterMap.1 hcomment
      have hsound := h.2 line hline
      cases line with
      | words text => cases hquoted
      | gap => cases hquoted
      | quoted other note =>
          obtain rfl : other = comment := Option.some.inj hquoted
          exact hsound.1

/-- What a block quotes is shown by it. -/
theorem Sound.shows (h : block.Sound comments) :
    ∀ comment ∈ block.quotes, Text.Shows (block.code.map CodeLine.chars) comment.text := by
  intro comment hcomment
  cases block with
  | short indent text => cases hcomment
  | long indent lines =>
      obtain ⟨line, hline, hquoted⟩ := List.mem_filterMap.1 hcomment
      cases line with
      | words text => cases hquoted
      | gap => cases hquoted
      | quoted other note =>
          obtain rfl : other = comment := Option.some.inj hquoted
          refine ⟨_, List.mem_map_of_mem (List.mem_cons_of_mem _ (List.mem_append_left _
            (List.mem_map_of_mem hline))), note.toList, ?_⟩
          rw [DocLine.code, unindent_docLine h.1, String.toList_append, List.append_assoc]

/-- **A block ends where it was closed**, unless it shows a comment with an end of a comment in its
text. -/
theorem Sound.closedAtEnd_iff (h : block.Sound comments) :
    Text.ClosedAtEnd (block.code.map CodeLine.chars) ↔
      ∀ comment ∈ comments, Text.Shows (block.code.map CodeLine.chars) comment.text →
        Text.Unclosed comment.text := by
  cases block with
  | short indent text =>
      obtain ⟨⟨n, hblanks⟩, htext⟩ := h
      have hlines : (short indent text).code.map CodeLine.chars =
          [] ++ [List.replicate n ' ' ++ ("/** " ++ text ++ " ").toList ++ "*/".toList] := by
        simp [code, Indent.shortDoc, Indent.line, CodeLine.chars, hblanks, toList_spaces]
      have hbefore : ¬ Text.Closes
          (List.replicate n ' ' ++ ("/** " ++ text ++ " ").toList ++ ['*']) := by
        have hopened : ¬ Text.Closes "/** ".toList := by decide
        rw [Text.closes_append_of_not_mem_slash (by decide),
          Text.closes_append_of_not_mem_star (by simp), String.toList_append, String.toList_append,
          Text.closes_append_of_not_mem_slash (by decide), Text.closes_append, not_or, not_or]
        refine ⟨hopened, htext, ?_⟩
        simp
      rw [hlines, Text.closedAtEnd_append]
      refine ⟨fun _ comment _ hshown => ?_, fun _ => ⟨List.forall_mem_nil _, hbefore⟩⟩
      -- The only line of the block starts with a slash, so it shows no comment.
      obtain ⟨line, hline, note, hnote⟩ := hshown
      rw [List.mem_singleton.1 hline, List.append_assoc, Text.unindent_spaces_append,
        String.toList_append, String.toList_append] at hnote
      have hhead : some '/' = some '*' := congrArg List.head? hnote
      exact absurd hhead (by decide)
  | long indent lines =>
      obtain ⟨hindent, hsound⟩ := id h
      obtain ⟨n, hblanks⟩ := id hindent
      have hlines : (long indent lines).code.map CodeLine.chars =
          ((indent.line "/**" :: lines.map (DocLine.code indent)).map CodeLine.chars) ++
            [List.replicate n ' ' ++ [' '] ++ "*/".toList] := by
        simp [code, Indent.docAround, Indent.line, CodeLine.chars, hblanks, toList_spaces]
      have hbefore : ¬ Text.Closes (List.replicate n ' ' ++ [' '] ++ ['*']) :=
        fun hcloses => absurd (hcloses.mem (List.mem_cons_of_mem _ List.mem_cons_self)) (by simp)
      have hshows := h.shows
      have hmem := h.mem_comments
      rw [hlines] at hshows
      rw [hlines, Text.closedAtEnd_append]
      constructor
      · rintro ⟨hfront, -⟩ comment - ⟨line, hline, note, hnote⟩ hcloses
        rcases List.mem_append.1 hline with hline | hline
        · -- A line that shows the comment has its text in it.
          refine hfront line hline (Text.closes_of_unindent ?_)
          rw [hnote]
          have htrimmed := (Text.closes_trim comment.text).2 hcloses
          exact htrimmed.trans (List.infix_append _ _ _)
        · rw [List.mem_singleton.1 hline, List.append_assoc, Text.unindent_spaces_append] at hnote
          have hsecond : some '/' = some ' ' := congrArg (·[1]?) hnote
          exact absurd hsecond (by decide)
      · intro hunclosed
        refine ⟨List.forall_mem_map.2 (List.forall_mem_cons.2 ⟨?_, ?_⟩), hbefore⟩
        · exact (closes_line hindent "/**").not.2 (by decide)
        · refine List.forall_mem_map.2 fun line hline hcloses => ?_
          obtain ⟨comment, hcomment, hcloses⟩ :=
            ((hsound line hline).closes_code_iff hindent).1 hcloses
          have hquoted : comment ∈ (long indent lines).quotes :=
            List.mem_filterMap.2 ⟨line, hline, hcomment⟩
          exact hunclosed comment (hmem comment hquoted) (hshows comment hquoted) hcloses

end DocBlock

/-! ## Documented code -/

/-- The line starts no documentation block. -/
def CodeLine.Plain (line : CodeLine) : Prop :=
  ¬ "/**".toList <+: Text.unindent line.chars

/-- The documentation blocks of some code, in order, as they are written. -/
inductive DocumentedBy : Code → List DocBlock → Prop
  | nil : DocumentedBy [] []
  | line {line : CodeLine} {code : Code} {blocks : List DocBlock} (hline : line.Plain)
      (hcode : DocumentedBy code blocks) : DocumentedBy (line :: code) blocks
  | block (block : DocBlock) {code : Code} {blocks : List DocBlock}
      (hcode : DocumentedBy code blocks) : DocumentedBy (block.code ++ code) (block :: blocks)

/-- The code has sound documentation blocks, and apart from them no line that starts one. -/
def Documented (comments : List Comment) (code : Code) : Prop :=
  ∃ blocks, DocumentedBy code blocks ∧ ∀ block ∈ blocks, block.Sound comments

theorem DocumentedBy.append {a b : Code} {first second : List DocBlock}
    (ha : DocumentedBy a first) (hb : DocumentedBy b second) :
    DocumentedBy (a ++ b) (first ++ second) := by
  induction ha with
  | nil => exact hb
  | line hline _ ih => exact .line hline ih
  | block block _ ih =>
      rw [List.append_assoc]
      exact .block block ih

/-- A block is read as it is written. -/
theorem DocBlock.Sound.docBlocks_append {comments : List Comment} {block : DocBlock}
    (h : block.Sound comments) (rest : List (List Char)) :
    Text.docBlocks (block.code.map CodeLine.chars ++ rest) =
      block.code.map CodeLine.chars :: Text.docBlocks rest := by
  cases block with
  | short indent text =>
      obtain ⟨hindent, -⟩ := h
      have hline : Text.unindent (indent.shortDoc text).chars =
          "/**".toList ++ (" " ++ text ++ " */").toList := by
        rw [Indent.shortDoc, unindent_line hindent]
        simp [Text.unindent]
      refine Text.docBlocksFrom_short (hline ▸ List.prefix_append _ _) (fun heq => ?_) rest
      rw [hline] at heq
      simp at heq
  | long indent lines =>
      obtain ⟨hindent, -⟩ := h
      have hopening : Text.unindent (indent.line "/**").chars = "/**".toList :=
        unindent_line hindent _
      have hclosing : Text.unindent (indent.line " */").chars = "*/".toList :=
        unindent_line hindent _
      -- What stands on a line inside has a space in front of it, and a gap has nothing.
      have hinside : ∀ line ∈ (lines.map (DocLine.code indent)).map CodeLine.chars,
          Text.unindent line ≠ "*/".toList := by
        refine List.forall_mem_map.2 (List.forall_mem_map.2 fun line _ heq => ?_)
        have hsecond := congrArg (·[1]?) heq
        cases line with
        | words text | quoted comment note =>
            simp only [DocLine.code, unindent_docLine hindent] at hsecond
            exact absurd (show some ' ' = some '/' from hsecond) (by decide)
        | gap =>
            simp only [DocLine.code, Indent.docGap, unindent_line hindent] at hsecond
            exact absurd (show none = some '/' from hsecond) (by decide)
      simp only [DocBlock.code, Indent.docAround, List.map_cons, List.map_append, List.map_nil,
        List.cons_append, List.append_assoc, List.nil_append]
      rw [Text.docBlocks, Text.docBlocksFrom, if_pos hopening,
        Text.docBlocksFrom_opened hinside hclosing]
      rfl

/-- The blocks that are read off documented code are those that were written, whatever follows. -/
theorem DocumentedBy.docBlocks_append {comments : List Comment} {code : Code}
    {blocks : List DocBlock} (h : DocumentedBy code blocks)
    (hsound : ∀ block ∈ blocks, block.Sound comments) (rest : List (List Char)) :
    Text.docBlocks (code.map CodeLine.chars ++ rest) =
      blocks.map (fun block => block.code.map CodeLine.chars) ++ Text.docBlocks rest := by
  induction h with
  | nil => rfl
  | line hline _ ih => exact (Text.docBlocksFrom_plain hline _).trans (ih hsound)
  | block block _ ih =>
      obtain ⟨hblock, hothers⟩ := List.forall_mem_cons.1 hsound
      rw [List.map_append, List.append_assoc, hblock.docBlocks_append, ih hothers, List.map_cons,
        List.cons_append]

namespace Documented

variable {comments : List Comment} {indent : Indent}

theorem nil : Documented comments [] :=
  ⟨[], .nil, List.forall_mem_nil _⟩

theorem append {a b : Code} (ha : Documented comments a) (hb : Documented comments b) :
    Documented comments (a ++ b) := by
  obtain ⟨first, hfirst, hfirstSound⟩ := ha
  obtain ⟨second, hsecond, hsecondSound⟩ := hb
  exact ⟨first ++ second, hfirst.append hsecond,
    List.forall_mem_append.2 ⟨hfirstSound, hsecondSound⟩⟩

theorem cons {line : CodeLine} {code : Code} (hline : line.Plain)
    (hcode : Documented comments code) : Documented comments (line :: code) := by
  obtain ⟨blocks, hblocks, hsound⟩ := hcode
  exact ⟨blocks, .line hline hblocks, hsound⟩

theorem lines {code : Code} (h : ∀ line ∈ code, line.Plain) : Documented comments code := by
  induction code with
  | nil => exact nil
  | cons line code ih =>
      obtain ⟨hline, hcode⟩ := List.forall_mem_cons.1 h
      exact cons hline (ih hcode)

theorem block {block : DocBlock} (h : block.Sound comments) : Documented comments block.code := by
  have hblock : DocumentedBy (block.code ++ []) [block] := .block block .nil
  rw [List.append_nil] at hblock
  exact ⟨[block], hblock, List.forall_mem_singleton.2 h⟩

theorem codeIf {code : Code} (h : Documented comments code) (wanted : Bool) :
    Documented comments (codeIf wanted code) := by
  cases wanted with
  | true => exact h
  | false => exact nil

theorem flatMap {α : Type} {l : List α} {write : α → Code}
    (h : ∀ a ∈ l, Documented comments (write a)) : Documented comments (l.flatMap write) := by
  induction l with
  | nil => exact nil
  | cons a l ih =>
      obtain ⟨hfirst, hrest⟩ := List.forall_mem_cons.1 h
      exact hfirst.append (ih hrest)

end Documented

/-! ## Lines that start no block -/

section Plain

variable {comments : List Comment} {indent : Indent}

theorem plain_emptyLine : emptyLine.Plain := by
  unfold CodeLine.Plain
  decide

/-- What starts with another character than a space or a slash starts no block. -/
theorem plain_line (hindent : indent.Spaced) {text : String} {c : Char}
    (hhead : text.toList.head? = some c) (hc : c ≠ ' ' ∧ c ≠ '/') : (indent.line text).Plain := by
  obtain ⟨hspace, hslash⟩ := hc
  obtain ⟨rest, hrest⟩ := List.head?_eq_some_iff.1 hhead
  rw [CodeLine.Plain, unindent_line_of_head? hindent hhead hspace, hrest]
  rintro ⟨after, hafter⟩
  exact hslash (List.cons.inj hafter).1.symm

/-- Neither does a code comment. -/
theorem plain_codeComment (hindent : indent.Spaced) (text : String) :
    (indent.line ("// " ++ text)).Plain := by
  rw [CodeLine.Plain, unindent_line hindent, String.toList_append]
  rintro ⟨after, hafter⟩
  have hsecond : '*' = '/' := congrArg (fun cs => cs.getD 1 '*') hafter
  exact absurd hsecond (by decide)

theorem documented_paragraph (hindent : indent.Spaced) {text : String} {c : Char}
    (hhead : text.toList.head? = some c) (hc : c ≠ ' ' ∧ c ≠ '/') :
    Documented comments (indent.paragraph text) :=
  .cons (plain_line hindent hhead hc) (.cons plain_emptyLine .nil)

theorem documented_member (hindent : indent.Spaced) {header : String} {c : Char}
    (hhead : header.toList.head? = some c) (hc : c ≠ ' ' ∧ c ≠ '/') {body : Code}
    (hbody : Documented comments body) : Documented comments (indent.member header body) := by
  have hclosing : Documented comments [indent.closing, emptyLine] :=
    .cons (plain_line hindent rfl (by decide)) (.cons plain_emptyLine .nil)
  exact .append (.cons (plain_line hindent (Text.head?_append hhead) hc) hbody) hclosing

end Plain

end TreeSmith

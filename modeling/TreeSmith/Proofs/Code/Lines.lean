import TreeSmith.Code
import TreeSmith.Config
import TreeSmith.Text.Blank

/-!
# TreeSmith.Proofs.Code.Lines

**The lines of a text that code is written as.** A line of code becomes one line of the text if
what it is made from has no line feed in it, and otherwise some more; in any case the lines of the
text are those of one line of code after the other (`lines_renderCode`), so that a text can be
read line by line without knowing how it was put together.
-/

namespace TreeSmith

namespace Text

/-- What ends in a line feed can be cut off a text. -/
theorem lines_append_newline (as bs : List Char) :
    lines (as ++ '\n' :: bs) = lines as ++ lines bs := by
  induction as with
  | nil => rfl
  | cons a as ih =>
      by_cases ha : a = '\n'
      · subst ha
        rw [List.cons_append, lines_newline, ih, lines_newline, List.cons_append]
      · have hne := lines_ne_nil as
        rw [List.cons_append, lines, if_neg ha, ih, lines, if_neg ha]
        cases hlines : lines as with
        | nil => exact absurd hlines hne
        | cons line rest => rfl

/-- A text without line feeds is a single line. -/
theorem lines_of_not_mem {cs : List Char} (h : '\n' ∉ cs) : lines cs = [cs] := by
  have := lines_append_of_not_mem h []
  simpa using this

theorem not_mem_of_mem_lines {cs line : List Char} (h : line ∈ lines cs) : '\n' ∉ line := by
  induction cs generalizing line with
  | nil =>
      obtain rfl : line = [] := by simpa using h
      exact List.not_mem_nil
  | cons c cs ih =>
      by_cases hc : c = '\n'
      · subst hc
        rw [lines_newline, List.mem_cons] at h
        rcases h with rfl | h
        · exact List.not_mem_nil
        · exact ih h
      · rw [lines, if_neg hc] at h
        cases hlines : lines cs with
        | nil => exact absurd hlines (lines_ne_nil cs)
        | cons first rest =>
            simp only [hlines, List.mem_cons] at h ih
            rcases h with rfl | h
            · rw [List.mem_cons, not_or]
              exact ⟨Ne.symm hc, ih (Or.inl rfl)⟩
            · exact ih (Or.inr h)

/-- Has the text no line feed in it? -/
def SingleLine (text : String) : Prop :=
  '\n' ∉ text.toList

instance (text : String) : Decidable (SingleLine text) :=
  inferInstanceAs (Decidable ('\n' ∉ text.toList))

@[simp] theorem singleLine_append {a b : String} :
    SingleLine (a ++ b) ↔ SingleLine a ∧ SingleLine b := by
  simp [SingleLine, String.toList_append]

@[simp] theorem singleLine_ofList {cs : List Char} : SingleLine (String.ofList cs) ↔ '\n' ∉ cs := by
  rw [SingleLine, String.toList_ofList]

/-- Numbers are written with digits. -/
@[simp] theorem singleLine_repr (n : Nat) : SingleLine n.repr := by
  rw [Nat.repr, singleLine_ofList]
  intro h
  exact absurd (Nat.isDigit_of_mem_toDigits (by decide) (by decide) h) (by decide)

theorem singleLine_toString (n : Nat) : SingleLine (toString n) := singleLine_repr n

theorem SingleLine.trim {text : String} (h : SingleLine text) : SingleLine (trim text) := by
  rw [Text.trim, singleLine_ofList]
  intro hmem
  have hsublist : (stripEnds isBlank text.toList).Sublist text.toList := by
    rw [stripEnds]
    refine .trans ?_ (List.dropWhile_sublist isBlank)
    have := (List.dropWhile_sublist (l := (text.toList.dropWhile isBlank).reverse)
      isBlank).reverse
    rwa [List.reverse_reverse] at this
  exact h (hsublist.mem hmem)

end Text

/-- The settings have no line feed in any of their strings. -/
def Config.SingleLine (config : Config) : Prop :=
  ∀ text ∈ [config.namePrefix, config.nameSuffix, config.nodeInterface, config.nodeToken,
      config.retArguVisitor, config.retVisitor, config.voidArguVisitor, config.voidVisitor,
      config.retType, config.arguType] ++ config.nodesSuperclass.toList ++
      config.nodesPackage.toList ++ config.visitorPackage.toList, Text.SingleLine text

instance (config : Config) : Decidable config.SingleLine :=
  inferInstanceAs (Decidable (∀ text ∈ _, Text.SingleLine text))

/-! ## Lines of code and lines of text -/

/-- All characters of a line, the blanks in front included. -/
def CodeLine.chars (line : CodeLine) : List Char :=
  line.blanks.toList ++ line.text.toList

/-- The lines of text that code is written as. -/
def textLines (code : Code) : List (List Char) :=
  code.flatMap fun line => Text.lines line.chars

@[simp] theorem textLines_nil : textLines [] = [] := rfl

@[simp] theorem textLines_cons (line : CodeLine) (code : Code) :
    textLines (line :: code) = Text.lines line.chars ++ textLines code := List.flatMap_cons ..

@[simp] theorem textLines_append (a b : Code) :
    textLines (a ++ b) = textLines a ++ textLines b := List.flatMap_append ..

/-- Behind the last line of code there is nothing left of the text. -/
theorem lines_renderCode (code : Code) :
    Text.lines (renderCode code).toList = textLines code ++ [[]] := by
  -- A line of code brings its own line feed, so that the next one starts on a new line of text.
  induction code with
  | nil => rfl
  | cons line code ih =>
      have hrender : (line.render ++ renderCode code).toList =
          line.chars ++ '\n' :: (renderCode code).toList := by
        simp [CodeLine.render, CodeLine.chars]
      rw [renderCode_cons, hrender, Text.lines_append_newline, ih, textLines_cons,
        List.append_assoc]

/-- The line is written as one line of text. -/
def CodeLine.SingleLine (line : CodeLine) : Prop :=
  '\n' ∉ line.chars

theorem textLines_of_singleLine {code : Code} (h : ∀ line ∈ code, line.SingleLine) :
    textLines code = code.map CodeLine.chars := by
  induction code with
  | nil => rfl
  | cons line code ih =>
      obtain ⟨hline, hrest⟩ := List.forall_mem_cons.1 h
      rw [textLines_cons, Text.lines_of_not_mem hline, ih hrest]
      rfl

theorem singleLine_emptyLine : emptyLine.SingleLine := by
  rw [CodeLine.SingleLine]
  decide

namespace Indent

variable {P : CodeLine → Prop} {indent : Indent} {text header : String} {body : Code}

theorem forall_mem_paragraph :
    (∀ line ∈ indent.paragraph text, P line) ↔ P (indent.line text) ∧ P emptyLine := by
  simp [paragraph]

theorem forall_mem_member : (∀ line ∈ indent.member header body, P line) ↔
    P (indent.opening header) ∧ (∀ line ∈ body, P line) ∧ P indent.closing ∧ P emptyLine := by
  simp [member, or_imp, forall_and]

end Indent

/-! ## Indents -/

/-- The line without the spaces in front of it. -/
def Text.unindent (line : List Char) : List Char :=
  line.dropWhile (· == ' ')

theorem Text.unindent_spaces_append (n : Nat) (cs : List Char) :
    unindent (List.replicate n ' ' ++ cs) = unindent cs := by
  rw [unindent, List.dropWhile_append_of_pos, unindent]
  intro c hc
  rw [(List.mem_replicate.1 hc).2]
  rfl

/-- The lines of the indent start with spaces. -/
def Indent.Spaced (indent : Indent) : Prop :=
  ∃ n, indent.blanks = Indent.spaces n

@[simp] theorem spaced_ofLevel (amount level : Nat) : (Indent.ofLevel amount level).Spaced :=
  ⟨_, rfl⟩

@[simp] theorem spaced_move (indent : Indent) (delta : Int) : (indent.move delta).Spaced :=
  ⟨_, rfl⟩

theorem toList_spaces (n : Nat) : (Indent.spaces n).toList = List.replicate n ' ' := by
  rw [Indent.spaces, String.toList_ofList]

/-- A line that is written at an indent. -/
theorem chars_line {indent : Indent} (hindent : indent.Spaced) (text : String) :
    ∃ n, (indent.line text).chars = List.replicate n ' ' ++ text.toList := by
  obtain ⟨n, hn⟩ := hindent
  exact ⟨n, by rw [CodeLine.chars, Indent.line, hn, toList_spaces]⟩

theorem unindent_line {indent : Indent} (hindent : indent.Spaced) (text : String) :
    Text.unindent (indent.line text).chars = Text.unindent text.toList := by
  obtain ⟨n, hchars⟩ := chars_line hindent text
  rw [hchars, Text.unindent_spaces_append]

/-- A text that does not start with a space stands on its line as it is. -/
theorem unindent_line_of_head? {indent : Indent} (hindent : indent.Spaced) {text : String}
    {c : Char} (hhead : text.toList.head? = some c) (hc : c ≠ ' ') :
    Text.unindent (indent.line text).chars = text.toList := by
  obtain ⟨rest, hrest⟩ := List.head?_eq_some_iff.1 hhead
  rw [unindent_line hindent, hrest, Text.unindent,
    List.dropWhile_cons_of_neg (by simpa using hc)]

theorem singleLine_line {indent : Indent} (hindent : indent.Spaced) {text : String} :
    (indent.line text).SingleLine ↔ Text.SingleLine text := by
  obtain ⟨n, hchars⟩ := chars_line hindent text
  rw [CodeLine.SingleLine, hchars]
  simp [Text.SingleLine]

end TreeSmith

import TreeSmith.Indent

/-!
# TreeSmith.Code

**Generated code is a list of lines**, and its text is those lines, each with its line feed.

Design points:

* A line keeps its blanks apart from its text, so that what is written and how deep it stands can
  be told apart without reading the blanks back.
* A member of a class is its opening line, its body, its closing line and an empty line
  (`Indent.member`); documentation is a block of its own in front of it (`Indent.doc`).
* A text given by the user may hold line feeds. It is still one line here, and its text is
  written as it is.
-/

namespace TreeSmith

/-- A line of code. -/
structure CodeLine where
  blanks : String
  text : String
  deriving DecidableEq, Repr

/-- Lines of code. -/
abbrev Code := List CodeLine

/-- The line as it is written. -/
def CodeLine.render (line : CodeLine) : String :=
  line.blanks ++ line.text ++ "\n"

/-- The text of some code. -/
def renderCode (code : Code) : String :=
  String.join (code.map CodeLine.render)

@[simp] theorem renderCode_nil : renderCode [] = "" := rfl

@[simp] theorem renderCode_cons (line : CodeLine) (code : Code) :
    renderCode (line :: code) = line.render ++ renderCode code := by
  simp [renderCode]

@[simp] theorem renderCode_append (a b : Code) :
    renderCode (a ++ b) = renderCode a ++ renderCode b := by
  simp [renderCode]

/-- A line without anything on it. -/
def emptyLine : CodeLine := ⟨"", ""⟩

namespace Indent

/-- A line at this level. -/
def line (indent : Indent) (text : String) : CodeLine :=
  ⟨indent.blanks, text⟩

/-- A line that opens a block. -/
def opening (indent : Indent) (text : String) : CodeLine :=
  indent.line (text ++ " \x7b")

/-- The line that closes a block. -/
def closing (indent : Indent) : CodeLine :=
  indent.line "\x7d"

/-- A line with an empty line behind it. -/
def paragraph (indent : Indent) (text : String) : Code :=
  [indent.line text, emptyLine]

/-- A block with an empty line behind it. -/
def member (indent : Indent) (header : String) (body : Code) : Code :=
  indent.opening header :: body ++ [indent.closing, emptyLine]

/-- A line inside a documentation block. -/
def docLine (indent : Indent) (text : String) : CodeLine :=
  indent.line (" * " ++ text)

/-- The line that separates the parts of a documentation block. -/
def docGap (indent : Indent) : CodeLine :=
  indent.line " *"

/-- A documentation block around `inside`. -/
def docAround (indent : Indent) (inside : Code) : Code :=
  indent.line "/**" :: inside ++ [indent.line " */"]

/-- A documentation block of a summary and, behind a gap, some tags. -/
def doc (indent : Indent) (summary : String) (tags : List String) : Code :=
  indent.docAround (indent.docLine summary :: indent.docGap :: tags.map indent.docLine)

end Indent

/-- The code, if it is wanted. -/
def codeIf (wanted : Bool) (code : Code) : Code :=
  if wanted then code else []

@[simp] theorem codeIf_true (code : Code) : codeIf true code = code := rfl

@[simp] theorem codeIf_false (code : Code) : codeIf false code = [] := rfl

end TreeSmith

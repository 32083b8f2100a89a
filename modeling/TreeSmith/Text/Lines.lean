/-!
# TreeSmith.Text.Lines

**Cutting a text at its line breaks.** A text with `n` line feeds has `n + 1` lines, of which the
last may be empty; joining the lines with line feeds gives the text back.
-/

namespace TreeSmith.Text

/-- The lines of a text, without the line feeds that end them. -/
def lines : List Char → List (List Char)
  | [] => [[]]
  | c :: cs =>
    if c = '\n' then [] :: lines cs
    else
      match lines cs with
      | [] => [[c]]
      | line :: rest => (c :: line) :: rest

@[simp] theorem lines_nil : lines [] = [[]] := rfl

@[simp] theorem lines_newline (cs : List Char) : lines ('\n' :: cs) = [] :: lines cs := rfl

theorem lines_ne_nil (cs : List Char) : lines cs ≠ [] := by
  cases cs with
  | nil => simp
  | cons c cs =>
    simp only [lines]
    split
    · simp
    · split <;> simp

/-- A first part without line feeds belongs to the first line. -/
theorem lines_append_of_not_mem {as : List Char} (h : '\n' ∉ as) (bs : List Char) :
    lines (as ++ bs) = (as ++ (lines bs).head (lines_ne_nil bs)) :: (lines bs).tail := by
  induction as with
  | nil => simp
  | cons a as ih =>
    simp only [List.mem_cons, not_or] at h
    have ha : ¬ a = '\n' := fun e => h.1 e.symm
    simp [lines, ha, ih h.2]

/-- A line written with its line feed is the first line of the text that it starts. -/
theorem lines_line_append {as : List Char} (h : '\n' ∉ as) (bs : List Char) :
    lines (as ++ '\n' :: bs) = as :: lines bs := by
  simp [lines_append_of_not_mem h]

end TreeSmith.Text

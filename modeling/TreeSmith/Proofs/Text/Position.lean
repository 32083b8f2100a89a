import TreeSmith.Text.LineColumn
import TreeSmith.Text.Lines

/-!
# TreeSmith.Proofs.Text.Position

**The line and column of an offset are in the text.** A text up to some offset is whole lines, each
with its line feed, and the start of another one (`Text.exists_lines`). That line goes on behind the
offset, so the line is one of the text and the column is at the end of one of its characters
(`Text.liesAt_lineColumn`).
-/

namespace TreeSmith.Text

/-- The offset does not lie inside a character of the text. -/
def IsBoundary (text : List Char) (offset : Nat) : Prop :=
  ∃ before after, text = before ++ after ∧ offset = size before

/-- So many lines, each with its line feed, one after the other. -/
def linesText (earlier : List (List Char)) : List Char :=
  earlier.flatMap (· ++ ['\n'])

/-- The offset lies in the text at that line and column: behind the lines in front of it, and behind
some characters of its own line. -/
structure LiesAt (text : List Char) (offset : Nat) (place : LineColumn) : Prop where
  boundary : IsBoundary text offset
  inLine : ∃ earlier front back later, lines text = earlier ++ (front ++ back) :: later ∧
    place = ⟨earlier.length + 1, size front + 1⟩ ∧
    offset = size (linesText earlier) + size front

@[simp] theorem linesText_nil : linesText [] = [] := rfl

@[simp] theorem linesText_cons (line : List Char) (earlier : List (List Char)) :
    linesText (line :: earlier) = line ++ '\n' :: linesText earlier := by
  simp [linesText]

/-- Any text is some lines and the start of another one. -/
theorem exists_lines (before : List Char) : ∃ earlier front,
    before = linesText earlier ++ front ∧ (∀ line ∈ earlier, '\n' ∉ line) ∧ '\n' ∉ front := by
  induction before with
  | nil => exact ⟨[], [], rfl, List.forall_mem_nil _, List.not_mem_nil⟩
  | cons c before ih =>
      obtain ⟨earlier, front, rfl, hearlier, hfront⟩ := ih
      by_cases hc : c = '\n'
      · subst hc
        exact ⟨[] :: earlier, front, rfl,
          List.forall_mem_cons.2 ⟨List.not_mem_nil, hearlier⟩, hfront⟩
      · have hadd : ∀ line : List Char, '\n' ∉ line → '\n' ∉ c :: line := fun line hline hmem =>
          (List.mem_cons.1 hmem).elim (fun he => hc he.symm) hline
        cases earlier with
        | nil => exact ⟨[], c :: front, rfl, hearlier, hadd front hfront⟩
        | cons line earlier =>
            obtain ⟨hline, hearlier⟩ := List.forall_mem_cons.1 hearlier
            exact ⟨(c :: line) :: earlier, front, by simp,
              List.forall_mem_cons.2 ⟨hadd line hline, hearlier⟩, hfront⟩

theorem size_reverse (cs : List Char) : size cs.reverse = size cs := by
  induction cs with
  | nil => rfl
  | cons c cs ih => rw [List.reverse_cons, size_append, ih, size_cons, Nat.add_comm]; rfl

section Behind

variable {earlier : List (List Char)} {front : List Char}

theorem count_linesText (hearlier : ∀ line ∈ earlier, '\n' ∉ line) :
    (linesText earlier).count '\n' = earlier.length := by
  induction earlier with
  | nil => rfl
  | cons line earlier ih =>
      obtain ⟨hline, hearlier⟩ := List.forall_mem_cons.1 hearlier
      rw [linesText_cons, List.count_append, List.count_cons_self, ih hearlier,
        List.count_eq_zero_of_not_mem hline, Nat.zero_add, List.length_cons]

/-- Behind some lines and the start of another one, the line is the next one. -/
theorem behind_linesText (hearlier : ∀ line ∈ earlier, '\n' ∉ line) (hfront : '\n' ∉ front) :
    behind (linesText earlier ++ front) = ⟨earlier.length + 1, size front + 1⟩ := by
  have hstart : (linesText earlier).reverse.takeWhile (· != '\n') = [] := by
    cases hlines : earlier.getLast? with
    | none =>
        rw [List.getLast?_eq_none_iff.1 hlines]
        rfl
    | some last =>
        obtain ⟨others, rfl⟩ := List.getLast?_eq_some_iff.1 hlines
        simp [linesText]
  have hcolumn : (linesText earlier ++ front).reverse.takeWhile (· != '\n') = front.reverse := by
    rw [List.reverse_append, List.takeWhile_append_of_pos, hstart, List.append_nil]
    intro c hc
    simpa using fun he : c = '\n' => hfront (he ▸ List.mem_reverse.1 hc)
  rw [behind, hcolumn, size_reverse, List.count_append, count_linesText hearlier,
    List.count_eq_zero_of_not_mem hfront, Nat.add_zero]

/-- Lines in front of a text are its first lines. -/
theorem lines_linesText (hearlier : ∀ line ∈ earlier, '\n' ∉ line) (cs : List Char) :
    lines (linesText earlier ++ cs) = earlier ++ lines cs := by
  induction earlier with
  | nil => rfl
  | cons line earlier ih =>
      obtain ⟨hline, hearlier⟩ := List.forall_mem_cons.1 hearlier
      rw [linesText_cons, List.append_assoc, List.cons_append, lines_line_append hline,
        ih hearlier, List.cons_append]

/-- What follows goes on with the line that was started. -/
theorem lines_linesText_append (hearlier : ∀ line ∈ earlier, '\n' ∉ line) (hfront : '\n' ∉ front)
    (after : List Char) : ∃ back later,
      lines (linesText earlier ++ front ++ after) = earlier ++ (front ++ back) :: later := by
  rw [List.append_assoc, lines_linesText hearlier, lines_append_of_not_mem hfront]
  exact ⟨_, _, rfl⟩

end Behind

/-- **The line and column of an offset are in the text**, if it is at the end of a character. -/
theorem liesAt_lineColumn {text : List Char} {offset : Nat} (h : IsBoundary text offset) :
    LiesAt text offset (lineColumn text offset) := by
  obtain ⟨before, after, rfl, rfl⟩ := h
  obtain ⟨earlier, front, rfl, hearlier, hfront⟩ := exists_lines before
  obtain ⟨back, later, hlines⟩ := lines_linesText_append hearlier hfront after
  refine ⟨⟨_, after, rfl, rfl⟩, earlier, front, back, later, hlines, ?_, size_append _ _⟩
  rw [lineColumn, takeBytes_size_append, behind_linesText hearlier hfront]

end TreeSmith.Text

import TreeSmith.Proofs.Text.Position

/-!
# TreeSmith.Proofs.Text.Locating

**A line and a column say which offset they are of.** Lines are cut with the line feeds that end
them, so that a text is its lines one after the other (`Text.flatten_fullLines`). The lines in front
of the one that was found, and what the column counts, are the bytes up to the offset; and an offset
further on has a line further down, or a greater column on the same one (`Text.lineColumn_exact`).
-/

namespace TreeSmith.Text

/-! ## Lines with their line feeds -/

/-- The lines of a text, each with the line feed that ends it. Only the last one has none. -/
def fullLines (cs : List Char) : List (List Char) :=
  (lines cs).dropLast.map (· ++ ['\n']) ++ [(lines cs).getLast (lines_ne_nil cs)]

/-- Whole lines in front of a text are its first lines. -/
theorem fullLines_linesText {earlier : List (List Char)}
    (hearlier : ∀ line ∈ earlier, '\n' ∉ line) (cs : List Char) :
    fullLines (linesText earlier ++ cs) = earlier.map (· ++ ['\n']) ++ fullLines cs := by
  have hlines := lines_linesText hearlier cs
  simp [fullLines, hlines, List.dropLast_append_of_ne_nil, List.getLast_append_of_ne_nil,
    lines_ne_nil]

/-- A text is its lines, one after the other. -/
theorem flatten_fullLines (cs : List Char) : (fullLines cs).flatten = cs := by
  obtain ⟨earlier, front, rfl, hearlier, hfront⟩ := exists_lines cs
  have hlast : lines front = [front] := by simpa using lines_append_of_not_mem hfront []
  rw [fullLines_linesText hearlier]
  simp [fullLines, hlast, linesText, List.flatMap]

/-! ## The line and column of an offset -/

/-- This is the line and column of the offset, or of the end of the text if that comes first. Both
are counted from one. In front of it are the lines before its own and a part of that. -/
structure Locates (text : List Char) (offset : Nat) (place : LineColumn) : Prop where
  counted : 1 ≤ place.line ∧ place.line ≤ (fullLines text).length ∧ 1 ≤ place.column
  bytes : size ((fullLines text).take (place.line - 1)).flatten + (place.column - 1) =
    min offset (size text)
  front : ∃ front back, text = ((fullLines text).take (place.line - 1)).flatten ++ front ++ back ∧
    size (((fullLines text).take (place.line - 1)).flatten ++ front) = min offset (size text) ∧
    (((fullLines text).take (place.line - 1)).flatten ++ front).count '\n' = place.line - 1 ∧
    '\n' ∉ front

/-- The place comes first, in the order of lines and then of columns. -/
def LineColumn.Before (one two : LineColumn) : Prop :=
  one.line < two.line ∨ one.line = two.line ∧ one.column < two.column

/-- What lies in front of an offset past the end is the whole text. -/
theorem takeBytes_of_size_le {offset : Nat} {text : List Char} (h : size text ≤ offset) :
    takeBytes offset text = text := by
  induction text generalizing offset with
  | nil => rfl
  | cons c text ih =>
      rw [size_cons] at h
      rw [takeBytes, if_pos (by omega), ih (by omega)]

/-- The place behind a first part of a text locates its end. -/
theorem locates_behind {before after : List Char} {offset : Nat}
    (h : min offset (size (before ++ after)) = size before) :
    Locates (before ++ after) offset (behind before) := by
  obtain ⟨earlier, front, rfl, hearlier, hfront⟩ := exists_lines before
  have hlines : ((fullLines (linesText earlier ++ front ++ after)).take earlier.length).flatten =
      linesText earlier := by
    rw [List.append_assoc, fullLines_linesText hearlier,
      List.take_append_of_le_length (by simp), List.take_of_length_le (by simp)]
    simp [linesText, List.flatMap]
  rw [behind_linesText hearlier hfront]
  refine ⟨⟨by simp, ?_, by simp⟩, ?_, front, after, ?_, ?_, ?_, hfront⟩
  · rw [List.append_assoc, fullLines_linesText hearlier]
    simp [fullLines]
  all_goals simp only [Nat.add_sub_cancel]
  · rw [hlines, h, size_append]
  · rw [hlines]
  · rw [hlines, h]
  · rw [hlines, List.count_append, count_linesText hearlier, List.count_eq_zero_of_not_mem hfront,
      Nat.add_zero]

/-- A longer first part of a text has a later place behind it. -/
theorem behind_before_behind (before : List Char) {more : List Char} (hmore : more ≠ []) :
    (behind before).Before (behind (before ++ more)) := by
  obtain ⟨earlier, front, rfl, hearlier, hfront⟩ := exists_lines before
  obtain ⟨others, back, rfl, hothers, hback⟩ := exists_lines more
  rw [behind_linesText hearlier hfront]
  cases others with
  | nil =>
      -- The line goes on.
      have hlonger := List.length_pos_iff.2 hmore
      have hsize := length_le_size back
      simp only [linesText_nil, List.nil_append] at hlonger ⊢
      rw [List.append_assoc, behind_linesText hearlier (by simp [hfront, hback])]
      exact Or.inr ⟨rfl, by simp only [size_append]; omega⟩
  | cons line others =>
      -- The line ends, and there may be others behind it.
      obtain ⟨hline, hothers⟩ := List.forall_mem_cons.1 hothers
      have hwhole : linesText earlier ++ front ++ (linesText (line :: others) ++ back) =
          linesText (earlier ++ (front ++ line) :: others) ++ back := by
        simp [linesText]
      have hlong : '\n' ∉ front ++ line := by simp [hfront, hline]
      have hall : ∀ full ∈ earlier ++ (front ++ line) :: others, '\n' ∉ full :=
        List.forall_mem_append.2 ⟨hearlier, List.forall_mem_cons.2 ⟨hlong, hothers⟩⟩
      rw [hwhole, behind_linesText hall hback]
      refine Or.inl ?_
      simp only [List.length_append, List.length_cons]
      omega

/-- **The line and column locate an offset**, if it is at the end of a character or past the end of
the text; and they come in the order of the offsets. -/
theorem lineColumn_exact (text : List Char) :
    (∀ offset, IsBoundary text offset ∨ size text < offset →
      Locates text offset (lineColumn text offset)) ∧
    ∀ one two, IsBoundary text one → IsBoundary text two → one < two →
      (lineColumn text one).Before (lineColumn text two) := by
  constructor
  · rintro offset (⟨before, after, rfl, rfl⟩ | hpast)
    · rw [lineColumn, takeBytes_size_append]
      refine locates_behind (Nat.min_eq_left ?_)
      rw [size_append]
      exact Nat.le_add_right _ _
    · rw [lineColumn, takeBytes_of_size_le (Nat.le_of_lt hpast)]
      have hend : min offset (size (text ++ [])) = size text := by
        rw [List.append_nil]
        exact Nat.min_eq_right (Nat.le_of_lt hpast)
      simpa only [List.append_nil] using locates_behind hend
  · rintro one two ⟨before, after, rfl, rfl⟩ ⟨before', after', htext, rfl⟩ hlt
    -- The first part is shorter, so it is the start of the second one.
    rcases List.append_eq_append_iff.1 htext with ⟨more, rfl, rfl⟩ | ⟨more, rfl, -⟩
    · have hmore : more ≠ [] := by
        rintro rfl
        simp at hlt
      have hsecond : lineColumn (before ++ (more ++ after')) (size (before ++ more)) =
          behind (before ++ more) := by
        rw [← List.append_assoc, lineColumn, takeBytes_size_append]
      rw [hsecond, lineColumn, takeBytes_size_append]
      exact behind_before_behind before hmore
    · rw [size_append] at hlt
      omega

/-- At a line feed behind a character of two bytes, behind the last line feed, and past the end. -/
theorem lineColumn_exact_feeds : ∃ text, text = "aé\nb\n".toList ∧
    IsBoundary text 3 ∧ IsBoundary text 6 ∧ size text < 100 ∧
    Locates text 3 (lineColumn text 3) ∧ Locates text 100 (lineColumn text 100) ∧
    (lineColumn text 3).Before (lineColumn text 6) := by
  have hfeed : IsBoundary "aé\nb\n".toList 3 := ⟨['a', 'é'], ['\n', 'b', '\n'], rfl, rfl⟩
  have hend : IsBoundary "aé\nb\n".toList 6 := ⟨['a', 'é', '\n', 'b', '\n'], [], rfl, rfl⟩
  have hpast : size "aé\nb\n".toList < 100 := by decide
  exact ⟨_, rfl, hfeed, hend, hpast, (lineColumn_exact _).1 3 (Or.inl hfeed),
    (lineColumn_exact _).1 100 (Or.inr hpast),
    (lineColumn_exact _).2 3 6 hfeed hend (by decide)⟩

end TreeSmith.Text

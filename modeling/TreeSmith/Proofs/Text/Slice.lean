import TreeSmith.Span
import TreeSmith.Text.Size

/-!
# TreeSmith.Proofs.Text.Slice

**Cutting a part out of a text by byte offsets.** Not every offset is a place to cut at: it may lie
inside a character, or behind the end of the text. So `slice?` may fail, and that it does not is a
statement of its own. It succeeds exactly if the text is three parts one after the other, and the
span starts and stops where the second one does (`slice?_eq_some_iff`).
-/

namespace TreeSmith.Text

/-- The bytes of a text are those of its UTF-8 form. -/
theorem size_toList (text : String) : size text.toList = text.utf8ByteSize := by
  refine String.push_induction text (fun text => size text.toList = text.utf8ByteSize) rfl ?_
  intro text c ih
  simp [ih]

/-- The characters in front of a byte offset and those behind it, unless it lies inside a character
or behind the end. -/
def cut? (offset : Nat) (text : List Char) : Option (List Char × List Char) :=
  let front := takeBytes offset text
  if size front = offset then some (front, text.drop front.length) else none

/-- The characters inside a span, unless it is reversed or one of its ends is no place to cut at. -/
def slice? (text : List Char) (span : Span) : Option (List Char) :=
  if span.start ≤ span.stop then
    (cut? span.start text).bind fun cut =>
      (cut? (span.stop - span.start) cut.2).map Prod.fst
  else none

theorem takeBytes_append_drop (bytes : Nat) (text : List Char) :
    takeBytes bytes text ++ text.drop (takeBytes bytes text).length = text := by
  induction text generalizing bytes with
  | nil => rfl
  | cons c text ih =>
      rw [takeBytes]
      split
      · simp [ih]
      · rfl

theorem cut?_eq_some_iff {offset : Nat} {text front back : List Char} :
    cut? offset text = some (front, back) ↔ text = front ++ back ∧ offset = size front := by
  rw [cut?]
  constructor
  · intro h
    split at h
    · rename_i hsize
      obtain ⟨rfl, rfl⟩ := Prod.mk.inj (Option.some.inj h)
      exact ⟨(takeBytes_append_drop offset text).symm, hsize.symm⟩
    · cases h
  · rintro ⟨rfl, rfl⟩
    simp

/-- **A part can be cut out exactly where it stands.** -/
theorem slice?_eq_some_iff {text inside : List Char} {span : Span} :
    slice? text span = some inside ↔ ∃ before after, text = before ++ (inside ++ after) ∧
      span.start = size before ∧ span.stop = span.start + size inside := by
  rw [slice?]
  constructor
  · intro h
    split at h
    · rename_i hforward
      obtain ⟨⟨before, back⟩, hbefore, hinside⟩ := Option.bind_eq_some_iff.1 h
      obtain ⟨⟨found, after⟩, hfound, rfl⟩ := Option.map_eq_some_iff.1 hinside
      obtain ⟨rfl, hstart⟩ := cut?_eq_some_iff.1 hbefore
      obtain ⟨rfl, hlength⟩ := cut?_eq_some_iff.1 hfound
      exact ⟨before, after, rfl, hstart, by dsimp only; omega⟩
    · cases h
  · rintro ⟨before, after, rfl, hstart, hstop⟩
    have hbefore : cut? span.start (before ++ (inside ++ after)) =
        some (before, inside ++ after) := cut?_eq_some_iff.2 ⟨rfl, hstart⟩
    have hinside : cut? (span.stop - span.start) (inside ++ after) = some (inside, after) :=
      cut?_eq_some_iff.2 ⟨rfl, by omega⟩
    rw [if_pos (by omega), hbefore, Option.bind_some, hinside, Option.map_some]

/-- What can be cut off from an offset on is what is left behind it. -/
theorem slice?_rest_iff {text rest : List Char} {offset : Nat} :
    slice? text ⟨offset, size text⟩ = some rest ↔
      ∃ before, text = before ++ rest ∧ offset = size before := by
  rw [slice?_eq_some_iff]
  constructor
  · rintro ⟨before, after, rfl, hstart, hstop⟩
    have hafter : after.length ≤ 0 := by
      have := length_le_size after
      simp only [size_append] at hstart hstop
      omega
    obtain rfl := List.length_eq_zero_iff.1 (Nat.le_zero.1 hafter)
    exact ⟨before, by simp, hstart⟩
  · rintro ⟨before, rfl, hstart⟩
    exact ⟨before, [], by simp, hstart, by rw [size_append, hstart]⟩

/-- A character as a whole, from inside it, and behind the end. -/
example : slice? "é=".toList ⟨0, 2⟩ = some ['é'] ∧ slice? "é=".toList ⟨1, 3⟩ = none ∧
    slice? "é=".toList ⟨2, 4⟩ = none := by decide

end TreeSmith.Text

/-!
# TreeSmith.Span

**Where something was written.** A span is a pair of byte offsets. Nothing forces `start ≤ stop`:
trees built by hand may carry any two numbers, and every operation is defined on them.

Design points:

* `cover` takes the smaller start and the larger stop, so it is associative, commutative and
  idempotent, and covering a list does not depend on how it is grouped.
* `contains` compares both ends and nothing else, so it is a preorder on reversed spans too: every
  span contains itself, and what a part contains the whole contains.
-/

namespace TreeSmith

/-- A range of byte offsets, from `start` up to and not including `stop`. -/
structure Span where
  start : Nat
  stop : Nat
  deriving DecidableEq, Repr, Inhabited

namespace Span

/-- The span of no text at the start of everything. -/
def zero : Span := ⟨0, 0⟩

/-- The smallest span that reaches from the smaller start to the larger stop. -/
def cover (a b : Span) : Span :=
  ⟨min a.start b.start, max a.stop b.stop⟩

/-- Does `a` reach from the start of `b`, or before it, to the stop of `b`, or past it? -/
def contains (a b : Span) : Bool :=
  a.start ≤ b.start && b.stop ≤ a.stop

/-- The lexicographic order on start and stop. -/
def less (a b : Span) : Bool :=
  a.start < b.start || (a.start == b.start && a.stop < b.stop)

/-- The cover of all spans of a list; a list without any covers no text. -/
def coverAll : List Span → Span
  | [] => zero
  | span :: spans => spans.foldl cover span

/-- A span as messages show it, such as `3..7`. -/
def render (a : Span) : String :=
  toString a.start ++ ".." ++ toString a.stop

theorem contains_iff {a b : Span} :
    a.contains b = true ↔ a.start ≤ b.start ∧ b.stop ≤ a.stop := by
  simp [contains]

@[simp] theorem coverAll_nil : coverAll [] = zero := rfl

@[simp] theorem coverAll_singleton (a : Span) : coverAll [a] = a := rfl

theorem cover_assoc (a b c : Span) : (a.cover b).cover c = a.cover (b.cover c) := by
  simp [cover, Nat.min_assoc, Nat.max_assoc]

theorem cover_comm (a b : Span) : a.cover b = b.cover a := by
  simp [cover, Nat.min_comm, Nat.max_comm]

@[simp] theorem contains_self (a : Span) : a.contains a = true :=
  contains_iff.2 ⟨Nat.le_refl _, Nat.le_refl _⟩

theorem contains_trans {a b c : Span} (hab : a.contains b = true) (hbc : b.contains c = true) :
    a.contains c = true := by
  rw [contains_iff] at *
  omega

/-- A cover reaches over its first part. -/
theorem cover_contains_left (a b : Span) : (a.cover b).contains a = true :=
  contains_iff.2 ⟨Nat.min_le_left _ _, Nat.le_max_left _ _⟩

/-- A cover reaches over its second part. -/
theorem cover_contains_right (a b : Span) : (a.cover b).contains b = true :=
  contains_iff.2 ⟨Nat.min_le_right _ _, Nat.le_max_right _ _⟩

end Span

end TreeSmith

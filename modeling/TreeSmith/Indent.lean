/-!
# TreeSmith.Indent

**Indentation that moves by levels.** An indent is a level and the blanks that a line at that
level starts with. The blanks are built when the level changes and not for every line, so they
are part of the value; `ofLevel` and `move` are the only ways to one, and keep the two in step.

Design points:

* A level never falls below zero: a move that would take it there is cut off. At the other end
  it is cut off at the largest number of 64 bits.
* The number of blanks is a product of 64 bits and wraps around there, unlike the level. No text
  has room for so many blanks; it takes an amount or a level far beyond any code to get there.
* `nested` moves one level in and one level out again. If its inside was cut off, or does not
  return to where it was, it does not end where it began.
-/

namespace TreeSmith

/-- A level of indentation and the blanks for it. -/
structure Indent where
  /-- How many blanks make one level. -/
  amount : Nat
  level : Nat
  blanks : String
  deriving DecidableEq, Repr

namespace Indent

/-- The greatest level. -/
def maxLevel : Nat := UInt64.size - 1

/-- `n` blanks. -/
def spaces (n : Nat) : String :=
  String.ofList (List.replicate n ' ')

/-- How many blanks a level has, as 64 bits hold the number. -/
def width (amount level : Nat) : Nat :=
  amount * level % UInt64.size

/-- The indent of a level. -/
def ofLevel (amount level : Nat) : Indent :=
  ⟨amount, level, spaces (width amount level)⟩

/-- Moves the level by `delta`, as far as levels go. -/
def move (indent : Indent) (delta : Int) : Indent :=
  ofLevel indent.amount (min maxLevel (indent.level + delta).toNat)

/-- Runs `body` one level deeper. -/
def nested {α : Type} (indent : Indent) (body : Indent → α × Indent) : α × Indent :=
  let (result, inner) := body (indent.move 1)
  (result, inner.move (-1))

@[simp] theorem level_ofLevel (amount level : Nat) : (ofLevel amount level).level = level := rfl

@[simp] theorem amount_ofLevel (amount level : Nat) : (ofLevel amount level).amount = amount :=
  rfl

@[simp] theorem blanks_ofLevel (amount level : Nat) :
    (ofLevel amount level).blanks = spaces (width amount level) := rfl

theorem width_eq_of_lt {amount level : Nat} (h : amount * level < UInt64.size) :
    width amount level = amount * level :=
  Nat.mod_eq_of_lt h

@[simp] theorem amount_move (indent : Indent) (delta : Int) :
    (indent.move delta).amount = indent.amount := rfl

/-! ## Programs of moves -/

/-- A move, or moves run inside `nested`. -/
inductive Step where
  | move (delta : Int)
  | nested (steps : List Step)

/-- What has just happened to an indent. -/
inductive Moment where
  | moved (delta : Int)
  | entered
  | left
  deriving DecidableEq, Repr

mutual

/-- Runs one step. The result lists every indent on the way, in order, and the last one. -/
def Step.run (indent : Indent) : Step → List (Moment × Indent) × Indent
  | .move delta => ([(.moved delta, indent.move delta)], indent.move delta)
  | .nested steps =>
    let (inside, outer) := indent.nested fun inner =>
      let (trace, last) := runSteps inner steps
      ((.entered, inner) :: trace, last)
    (inside ++ [(.left, outer)], outer)

/-- Runs steps one after the other. -/
def runSteps (indent : Indent) : List Step → List (Moment × Indent) × Indent
  | [] => ([], indent)
  | step :: rest =>
    let (first, middle) := step.run indent
    let (others, last) := runSteps middle rest
    (first ++ others, last)

end

end Indent

end TreeSmith

import Mathlib
import TreeSmith.Proofs.Code.Lines

/-!
# TreeSmith.Proofs.Indentation

**The moves of an indent add up, and its blanks keep up with them.** A run of steps, however they
are nested, is a trail of single moves (`Indent.trail_runSteps`). On a trail the blanks are those of
the level all along; and where no move is cut off, the level at the end is the one at the start and
all deltas (`Indent.Trail.level_eq`). Going into `nested` and out of it adds nothing to them
(`Indent.sum_delta_run`).

Two things happen at the end of what 64 bits hold. The blanks are exactly those of the level as long
as their number fits; a greater number wraps around. And a move can be cut off at either end of the
levels, the upper one included. There `nested` does not restore the level, although its inside did
nothing: the way in is cut off and the way out is not (`Indent.not_addsUp_maxLevel`).
-/

namespace TreeSmith.Indent

/-- By how much a level moves. -/
def Moment.delta : Moment → Int
  | .moved delta => delta
  | .entered => 1
  | .left => -1

@[simp] theorem delta_moved (delta : Int) : (Moment.moved delta).delta = delta := rfl

@[simp] theorem delta_entered : Moment.entered.delta = 1 := rfl

@[simp] theorem delta_left : Moment.left.delta = -1 := rfl

mutual

/-- The deltas of all moves in a step, added up. -/
def Step.total : Step → Int
  | .move delta => delta
  | .nested steps => total steps

/-- The deltas of all moves in some steps, added up. -/
def total : List Step → Int
  | [] => 0
  | step :: rest => step.total + total rest

end

/-- The blanks are as many as the level tells: exactly so many where 64 bits hold the number, and
what is left of it otherwise. -/
structure InStep (amount : Nat) (indent : Indent) : Prop where
  amount_eq : indent.amount = amount
  exact : amount * indent.level < 2 ^ 64 →
    indent.blanks.toList = List.replicate (amount * indent.level) ' '
  wrapped : indent.blanks.toList = List.replicate (amount * indent.level % 2 ^ 64) ' '

theorem inStep_ofLevel (amount level : Nat) : (ofLevel amount level).InStep amount where
  amount_eq := rfl
  exact h := by
    rw [level_ofLevel] at h ⊢
    rw [blanks_ofLevel, toList_spaces, width_eq_of_lt h]
  wrapped := toList_spaces _

theorem InStep.move {amount : Nat} {indent : Indent} (h : indent.InStep amount) (delta : Int) :
    (indent.move delta).InStep amount := by
  rw [Indent.move, h.amount_eq]
  exact inStep_ofLevel ..

/-- A move that stays among the levels adds its delta. -/
theorem level_move {indent : Indent} {delta : Int}
    (h : 0 ≤ indent.level + delta ∧ indent.level + delta ≤ maxLevel) :
    ((indent.move delta).level : Int) = indent.level + delta := by
  rw [Indent.move, level_ofLevel]
  omega

/-! ## Trails -/

/-- The moments lead from the first indent to the last one. Each one moves the indent in front of
it. -/
inductive Trail : Indent → List (Moment × Indent) → Indent → Prop
  | nil (indent : Indent) : Trail indent [] indent
  | cons {indent last : Indent} {trace : List (Moment × Indent)} (moment : Moment) :
      Trail (indent.move moment.delta) trace last →
      Trail indent ((moment, indent.move moment.delta) :: trace) last

/-- The levels that a trace would come to, each from the indent in front of it, if levels had no
ends. -/
def aims (indent : Indent) : List (Moment × Indent) → List Int
  | [] => []
  | (moment, next) :: trace => (indent.level + moment.delta) :: aims next trace

/-- No move of the trace is cut off. -/
def Uncut (indent : Indent) (trace : List (Moment × Indent)) : Prop :=
  ∀ aim ∈ aims indent trace, 0 ≤ aim ∧ aim ≤ maxLevel

instance (indent : Indent) (trace : List (Moment × Indent)) : Decidable (Uncut indent trace) :=
  inferInstanceAs (Decidable (∀ aim ∈ aims indent trace, 0 ≤ aim ∧ aim ≤ maxLevel))

theorem uncut_cons_iff {indent next : Indent} {moment : Moment} {trace : List (Moment × Indent)} :
    Uncut indent ((moment, next) :: trace) ↔
      (0 ≤ indent.level + moment.delta ∧ indent.level + moment.delta ≤ maxLevel) ∧
        Uncut next trace :=
  List.forall_mem_cons

namespace Trail

variable {indent middle last : Indent} {trace more : List (Moment × Indent)}

theorem append (h : Trail indent trace middle) (hmore : Trail middle more last) :
    Trail indent (trace ++ more) last := by
  induction h with
  | nil => exact hmore
  | cons moment _ ih => exact .cons moment (ih hmore)

theorem aims_append (h : Trail indent trace middle) (more : List (Moment × Indent)) :
    aims indent (trace ++ more) = aims indent trace ++ aims middle more := by
  induction h with
  | nil => rfl
  | cons moment _ ih => rw [List.cons_append, aims, ih, aims, List.cons_append]

theorem uncut_append_iff (h : Trail indent trace middle) :
    Uncut indent (trace ++ more) ↔ Uncut indent trace ∧ Uncut middle more := by
  rw [Uncut, h.aims_append, List.forall_mem_append, Uncut, Uncut]

/-- **The blanks keep up** with the level all along a trail. -/
theorem inStep {amount : Nat} (h : Trail indent trace last) (hindent : indent.InStep amount) :
    (∀ entry ∈ trace, entry.2.InStep amount) ∧ last.InStep amount := by
  induction h with
  | nil => exact ⟨List.forall_mem_nil _, hindent⟩
  | cons moment _ ih =>
      have hnext := hindent.move moment.delta
      exact ⟨List.forall_mem_cons.2 ⟨hnext, (ih hnext).1⟩, (ih hnext).2⟩

/-- **The moves add up** along a trail on which none is cut off. -/
theorem level_eq (h : Trail indent trace last) (huncut : Uncut indent trace) :
    (last.level : Int) = indent.level + (trace.map fun entry => entry.1.delta).sum := by
  induction h with
  | nil => simp
  | cons moment _ ih =>
      obtain ⟨hends, hothers⟩ := uncut_cons_iff.1 huncut
      rw [ih hothers, level_move hends, List.map_cons, List.sum_cons, Int.add_assoc]

end Trail

/-! ## Runs of steps -/

theorem run_nested (indent : Indent) (steps : List Step) :
    (Step.nested steps).run indent =
      ((.entered, indent.move 1) :: ((runSteps (indent.move 1) steps).1 ++
        [(.left, (runSteps (indent.move 1) steps).2.move (-1))]),
        (runSteps (indent.move 1) steps).2.move (-1)) := rfl

theorem runSteps_cons (indent : Indent) (step : Step) (rest : List Step) :
    runSteps indent (step :: rest) =
      ((step.run indent).1 ++ (runSteps (step.run indent).2 rest).1,
        (runSteps (step.run indent).2 rest).2) := rfl

mutual

/-- **A step is run as a trail**, whatever is nested in it. -/
theorem trail_run (indent : Indent) :
    (step : Step) → Trail indent (step.run indent).1 (step.run indent).2
  | .move delta => .cons (.moved delta) (.nil _)
  | .nested steps => by
      have hinside := trail_runSteps (indent.move 1) steps
      rw [run_nested]
      exact .cons .entered (hinside.append (.cons .left (.nil _)))

theorem trail_runSteps (indent : Indent) :
    (steps : List Step) → Trail indent (runSteps indent steps).1 (runSteps indent steps).2
  | [] => .nil _
  | step :: rest => by
      rw [runSteps_cons]
      exact (trail_run indent step).append (trail_runSteps _ rest)

end

mutual

/-- The moves on the way are those of the step; the way in and the way out cancel. -/
theorem sum_delta_run (indent : Indent) : (step : Step) →
    ((step.run indent).1.map fun entry => entry.1.delta).sum = step.total
  | .move delta => by simp [Step.run, Step.total]
  | .nested steps => by
      have hinside := sum_delta_runSteps (indent.move 1) steps
      simp only [run_nested, List.map_cons, List.map_append, List.map_nil, List.sum_cons,
        List.sum_append, List.sum_nil, hinside, Step.total, delta_entered, delta_left]
      omega

theorem sum_delta_runSteps (indent : Indent) : (steps : List Step) →
    ((runSteps indent steps).1.map fun entry => entry.1.delta).sum = total steps
  | [] => rfl
  | step :: rest => by
      rw [runSteps_cons, List.map_append, List.sum_append, sum_delta_run indent step,
        sum_delta_runSteps _ rest, total]

end

/-- What is run from the first indent comes to a nested block, at any depth, and enters it from the
second one. -/
inductive Enters : Indent → List Step → List Step → Indent → Prop
  | here (indent : Indent) (block rest : List Step) :
      Enters indent (.nested block :: rest) block indent
  | inside {indent start : Indent} {inner block : List Step} (rest : List Step) :
      Enters (indent.move 1) inner block start →
      Enters indent (.nested inner :: rest) block start
  | later {indent start : Indent} {rest block : List Step} (step : Step) :
      Enters (step.run indent).2 rest block start →
      Enters indent (step :: rest) block start

/-- A part of a run in which nothing is cut off has nothing cut off. -/
theorem Enters.uncut {indent start : Indent} {steps block : List Step}
    (h : Enters indent steps block start) (huncut : Uncut indent (runSteps indent steps).1) :
    Uncut start ((Step.nested block).run start).1 := by
  induction h with
  | here indent block rest =>
      rw [runSteps_cons] at huncut
      exact ((trail_run ..).uncut_append_iff.1 huncut).1
  | inside rest _ ih =>
      -- The inner steps lie between the way in and the way out.
      rw [runSteps_cons] at huncut
      have hfirst := ((trail_run ..).uncut_append_iff.1 huncut).1
      rw [run_nested] at hfirst
      exact ih ((trail_runSteps ..).uncut_append_iff.1 (uncut_cons_iff.1 hfirst).2).1
  | later step _ ih =>
      rw [runSteps_cons] at huncut
      exact ih ((trail_run ..).uncut_append_iff.1 huncut).2

/-- **Blanks keep up and moves add up**, for every run of steps: the blanks are those of the level
after every move, and if no move is cut off, at zero or at the greatest level, the last level is the
first one and all deltas. So a nested block whose deltas cancel ends at the level that it was
entered from. -/
theorem runSteps_addsUp (amount level : Nat) (steps : List Step) :
    (∀ entry ∈ (runSteps (ofLevel amount level) steps).1, entry.2.InStep amount) ∧
    (runSteps (ofLevel amount level) steps).2.InStep amount ∧
    (Uncut (ofLevel amount level) (runSteps (ofLevel amount level) steps).1 →
      ((runSteps (ofLevel amount level) steps).2.level : Int) = level + total steps ∧
      ∀ block start, Enters (ofLevel amount level) steps block start → total block = 0 →
        ((Step.nested block).run start).2.level = start.level) := by
  have htrail := trail_runSteps (ofLevel amount level) steps
  have hblanks := htrail.inStep (inStep_ofLevel amount level)
  refine ⟨hblanks.1, hblanks.2, fun huncut => ⟨?_, ?_⟩⟩
  · rw [htrail.level_eq huncut, sum_delta_runSteps, level_ofLevel]
  · intro block start henters hcancel
    have hlevel := (trail_run start (.nested block)).level_eq (henters.uncut huncut)
    rw [sum_delta_run, Step.total, hcancel, Int.add_zero] at hlevel
    exact Int.ofNat_inj.1 hlevel

/-- A block that comes back to where it was entered, in a block that goes down to zero. -/
theorem runSteps_addsUp_nested : ∃ (block steps : List Step),
    block = [.move 4, .nested [.move (-1)], .move (-3)] ∧
    steps = [.move 1, .nested [.move (-2), .nested block, .move 1], .move 2] ∧
    Uncut (ofLevel 2 0) (runSteps (ofLevel 2 0) steps).1 ∧
    Enters (ofLevel 2 0) steps block (ofLevel 2 0) ∧ total block = 0 ∧
    ((runSteps (ofLevel 2 0) steps).2.level : Int) = 0 + total steps ∧
    ((Step.nested block).run (ofLevel 2 0)).2.level = 0 := by
  have huncut : Uncut (ofLevel 2 0) (runSteps (ofLevel 2 0) [.move 1, .nested [.move (-2),
      .nested [.move 4, .nested [.move (-1)], .move (-3)], .move 1], .move 2]).1 := by decide
  have henters : Enters (ofLevel 2 0) [.move 1, .nested [.move (-2),
      .nested [.move 4, .nested [.move (-1)], .move (-3)], .move 1], .move 2]
      [.move 4, .nested [.move (-1)], .move (-3)] (ofLevel 2 0) :=
    .later _ (.inside _ (.later _ (.here _ _ _)))
  have hadds := (runSteps_addsUp 2 0 _).2.2 huncut
  exact ⟨_, _, rfl, rfl, huncut, henters, rfl, hadds.1, hadds.2 _ _ henters rfl⟩

/-- **At the greatest level nothing goes further in.** No move goes below zero there, and still a
nested block without any steps does not end at the level that it was entered from. -/
theorem not_addsUp_maxLevel : ∃ (start : Indent) (steps : List Step),
    start = ofLevel 0 maxLevel ∧ steps = [.nested []] ∧
    (∀ aim ∈ aims start (runSteps start steps).1, 0 ≤ aim) ∧
    ((runSteps start steps).2.level : Int) ≠ start.level + total steps ∧
    (runSteps start steps).2.level = maxLevel - 1 := by
  refine ⟨_, _, rfl, rfl, ?_, ?_, ?_⟩
  · decide
  · decide
  · decide

end TreeSmith.Indent

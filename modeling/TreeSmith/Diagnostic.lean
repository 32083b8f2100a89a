import TreeSmith.Span

/-!
# TreeSmith.Diagnostic

**Problems found in the input of a pass.** Diagnostics are kept in the order in which they were
reported; what is counted or compared is their severity.
-/

namespace TreeSmith

/-- How bad a problem is. -/
inductive Severity where
  | info
  | warning
  | error
  deriving DecidableEq, Repr

namespace Severity

/-- The place of a severity among all of them, the least bad first. -/
def rank : Severity → Nat
  | info => 0
  | warning => 1
  | error => 2

/-- The worse of two severities. -/
def worse (a b : Severity) : Severity :=
  if a.rank < b.rank then b else a

/-- The name that messages start with. -/
def render : Severity → String
  | info => "info"
  | warning => "warning"
  | error => "error"

end Severity

/-- A problem, with the place that it is about if there is one. -/
structure Diagnostic where
  severity : Severity
  message : String
  span : Option Span
  deriving DecidableEq, Repr

/-- A diagnostic on one line. -/
def Diagnostic.render (d : Diagnostic) : String :=
  d.severity.render ++ ": " ++ d.message ++
    match d.span with
    | some span => " (at " ++ span.render ++ ")"
    | none => ""

/-- How many of the diagnostics are errors. -/
def errorCount (ds : List Diagnostic) : Nat :=
  ds.countP (·.severity = .error)

/-- Is one of the diagnostics an error? -/
def hasErrors (ds : List Diagnostic) : Bool :=
  0 < errorCount ds

/-- The worst severity among the diagnostics, unless there is none. -/
def worstSeverity? : List Diagnostic → Option Severity
  | [] => none
  | d :: ds => some (ds.foldl (fun worst next => worst.worse next.severity) d.severity)

@[simp] theorem errorCount_append (as bs : List Diagnostic) :
    errorCount (as ++ bs) = errorCount as + errorCount bs := by
  simp [errorCount]

theorem hasErrors_iff {ds : List Diagnostic} :
    hasErrors ds = true ↔ ∃ d ∈ ds, d.severity = .error := by
  simp [hasErrors, errorCount, List.countP_pos_iff]

end TreeSmith

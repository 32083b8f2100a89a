import TreeSmith.Diagnostic

/-!
# TreeSmith.Event

**What the library reports while it works.** An event is a value, its level and its wording are
functions of it. A `Logged` result is a value together with the events on the way to it; binding
appends, so no later step can lose or reorder what an earlier one reported.
-/

namespace TreeSmith

/-- How important an event is. -/
inductive LogLevel where
  | error
  | warn
  | info
  | debug
  | trace
  deriving DecidableEq, Repr

namespace LogLevel

/-- The name that log lines show. -/
def render : LogLevel → String
  | error => "ERROR"
  | warn => "WARN"
  | info => "INFO"
  | debug => "DEBUG"
  | trace => "TRACE"

/-- How verbose a log has to be to show the level. -/
def rank : LogLevel → Nat
  | error => 0
  | warn => 0
  | info => 1
  | debug => 2
  | trace => 3

end LogLevel

/-- Something worth a line in the log. -/
inductive Event where
  /-- A grammar was read from text. -/
  | read (productions comments : Nat)
  /-- A production was turned into a node type. -/
  | lowered (typeName : String) (fields : Nat)
  | generatedNodeType (typeName : String)
  | generatedVisitor (visitor : String)
  | generated (nodeTypes visitors walks : Nat)
  /-- Comments were asked for of a sub-part that does not exist. -/
  | badSubPart (typeName : String) (index size : Nat)
  | diagnostic (d : Diagnostic)
  | upToDate (path : String)
  | outOfDate (path : String)
  | updating (path : String)
  | updated (files : Nat)
  | stale (files : Nat)
  deriving DecidableEq, Repr

namespace Event

/-- How important the event is. -/
def level : Event → LogLevel
  | read .. => .debug
  | lowered .. => .trace
  | generatedNodeType _ => .debug
  | generatedVisitor _ => .debug
  | generated .. => .info
  | badSubPart .. => .warn
  | diagnostic d =>
    match d.severity with
    | .info => .info
    | .warning => .warn
    | .error => .error
  | upToDate _ => .debug
  | outOfDate _ => .warn
  | updating _ => .info
  | updated _ => .info
  | stale _ => .info

/-- What is wrong with an index of a sub-part. -/
def badSubPartText (index size : Nat) : String :=
  "invalid sub comment index (" ++ toString index ++ "), size = " ++ toString size

/-- The wording of the event. -/
def message : Event → String
  | read productions comments =>
    "read " ++ toString productions ++ " productions and " ++ toString comments ++ " comments"
  | lowered typeName fields => "lowered " ++ typeName ++ " with " ++ toString fields ++ " fields"
  | generatedNodeType typeName => "generated node type " ++ typeName
  | generatedVisitor visitor => "generated visitor " ++ visitor
  | generated nodeTypes visitors walks =>
    "generated " ++ toString nodeTypes ++ " node types and " ++ toString visitors ++
      " visitors (" ++ toString walks ++ " comment walks)"
  | badSubPart typeName index size => typeName ++ ": " ++ badSubPartText index size
  | diagnostic d => d.render
  | upToDate path => path ++ " is up to date"
  | outOfDate path => path ++ " is out of date"
  | updating path => "updating " ++ path
  | updated files => "updated " ++ toString files ++ " files"
  | stale files => toString files ++ " files out of date"

end Event

/-! ## Results with their events -/

/-- A value and the events on the way to it, oldest first. -/
structure Logged (α : Type) where
  value : α
  events : List Event

namespace Logged

instance : Monad Logged where
  pure a := ⟨a, []⟩
  bind x f := ⟨(f x.value).value, x.events ++ (f x.value).events⟩

/-- Reports an event. -/
def report (event : Event) : Logged Unit :=
  ⟨(), [event]⟩

@[simp] theorem value_pure {α : Type} (a : α) : (pure a : Logged α).value = a := rfl

@[simp] theorem events_pure {α : Type} (a : α) : (pure a : Logged α).events = [] := rfl

@[simp] theorem value_bind {α β : Type} (x : Logged α) (f : α → Logged β) :
    (x >>= f).value = (f x.value).value := rfl

@[simp] theorem value_map {α β : Type} (f : α → β) (x : Logged α) :
    (f <$> x).value = f x.value := rfl

@[simp] theorem events_bind {α β : Type} (x : Logged α) (f : α → Logged β) :
    (x >>= f).events = x.events ++ (f x.value).events := rfl

@[simp] theorem value_report (event : Event) : (report event).value = () := rfl

@[simp] theorem events_report (event : Event) : (report event).events = [event] := rfl

instance : LawfulMonad Logged :=
  LawfulMonad.mk' Logged
    (fun _ => by simp [Functor.map])
    (fun _ _ => by simp [bind, pure])
    (fun _ _ _ => by simp [bind, List.append_assoc])

end Logged

end TreeSmith

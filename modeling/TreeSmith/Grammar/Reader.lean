import TreeSmith.Event
import TreeSmith.Grammar.Outline
import TreeSmith.Lexeme.Stream
import TreeSmith.Rule.Definition

/-!
# TreeSmith.Grammar.Reader

**A grammar read from its text.** The text is read twice: as definitions, which decide whether it
is a grammar and what its rules say, and as lexemes, which say where everything was written. A
cursor then walks the lexemes in step with the outline of each rule, so that every part gets the
span of the lexemes it was written with.

Design points:

* The lexemes lead: a production starts wherever the cursor meets a name, and that name is looked
  up among the definitions. So the productions come in the order in which they are written,
  whatever order the definitions are in.

* Parentheses and bars have no part of their own in an outline. The cursor skips them before each
  part and keeps the opening parentheses it skipped, outermost first, for the composite parts
  that follow.
* A composite part takes the first of the kept parentheses, if there is one; a leaf ends the run
  of parentheses before it.
* A postfix operator lies behind the closing parentheses of what it applies to. A group takes the
  closing parenthesis behind its last member only if it has taken an opening one.
-/

namespace TreeSmith

/-- Why a text could not be read as a grammar. -/
inductive GrammarError where
  /-- The text is no grammar. -/
  | invalid (e : RuleError)
  | lexical (e : LexError)
  | unexpectedLexeme (expected found : String) (offset : Nat)
  | unexpectedEnd (expected : String)
  /-- A name was met that no definition defines. -/
  | unknownProduction (name : String)
  deriving DecidableEq, Repr

/-- The wording of a grammar error. -/
def GrammarError.message : GrammarError → String
  | invalid e => "invalid grammar: " ++ e.message
  | lexical e => "lexer error: " ++ e.message
  | unexpectedLexeme expected found offset =>
    "expected " ++ expected ++ " at offset " ++ toString offset ++ ", found " ++ found
  | unexpectedEnd expected => "expected " ++ expected ++ ", found end of file"
  | unknownProduction name => "no rule found for production `" ++ name ++ "`"

/-! ## The cursor -/

/-- What is left of the lexemes, and the opening parentheses skipped since the last leaf,
outermost first. -/
structure Cursor where
  rest : List Lexeme
  opens : List Span
  deriving Repr

/-- A walk along the lexemes. -/
abbrev Walk := StateT Cursor (Except GrammarError)

/-- The cursor behind the parentheses and bars that come next. A closing parenthesis or a bar
ends the run of opening ones before it. -/
def skipPunctuation (opens : List Span) : List Lexeme → Cursor
  | [] => ⟨[], opens⟩
  | lexeme :: rest =>
    match lexeme.kind with
    | .openParen => skipPunctuation (opens ++ [lexeme.span]) rest
    | .closeParen => skipPunctuation [] rest
    | .pipe => skipPunctuation [] rest
    | _ => ⟨lexeme :: rest, opens⟩

namespace Walk

/-- Skips parentheses and bars. -/
def skip : Walk Unit :=
  modify fun cursor => skipPunctuation cursor.opens cursor.rest

/-- Ends the run of opening parentheses. -/
def clearOpens : Walk Unit :=
  modify fun cursor => { cursor with opens := [] }

/-- Takes the outermost of the opening parentheses that were skipped. -/
def takeOpen : Walk (Option Span) := do
  let cursor ← get
  match cursor.opens with
  | [] => return none
  | span :: opens =>
    set { cursor with opens := opens }
    return some span

/-- Takes the next lexeme, which has to be of that kind. -/
def expect (kind : LexemeKind) (expected : String) : Walk Lexeme := do
  let cursor ← get
  match cursor.rest with
  | [] => throw (.unexpectedEnd expected)
  | lexeme :: rest =>
    if lexeme.kind = kind then
      set { cursor with rest := rest }
      return lexeme
    else throw (.unexpectedLexeme expected lexeme.text lexeme.span.start)

/-- Takes the next lexeme, which has to be of that kind and to have that text. -/
def expectText (kind : LexemeKind) (text : String) : Walk Lexeme := do
  let expected := "`" ++ text ++ "`"
  let lexeme ← expect kind expected
  if lexeme.text = text then return lexeme
  else throw (.unexpectedLexeme expected lexeme.text lexeme.span.start)

/-- Takes the lexeme of a leaf. -/
def leaf (kind : LexemeKind) (text : String) : Walk Lexeme := do
  clearOpens
  expectText kind text

/-- Takes a postfix operator from behind closing parentheses. -/
def expectPostfix (kind : LexemeKind) (expected : String) : Walk Lexeme := do
  modify fun cursor =>
    { cursor with rest := cursor.rest.dropWhile (·.kind = .closeParen) }
  expect kind expected

/-- Takes the closing parenthesis of a group that has taken an opening one, if it comes next; it
also ends the run of opening ones. -/
def takeClose (opened : Option Span) : Walk (Option Span) := do
  let cursor ← get
  match opened, cursor.rest with
  | some _, lexeme :: rest =>
    if lexeme.kind = .closeParen then
      set ({ rest := rest, opens := [] } : Cursor)
      return some lexeme.span
    else return none
  | _, _ => return none

end Walk

/-- A span from the opening parenthesis on, if there is one. -/
def coverOpen (opened : Option Span) (span : Span) : Span :=
  match opened with
  | some paren => paren.cover span
  | none => span

/-- A span up to the closing parenthesis, if there is one. -/
def coverClose (span : Span) (closed : Option Span) : Span :=
  match closed with
  | some paren => span.cover paren
  | none => span

/-! ## Parts with their places -/

mutual

/-- Walks the lexemes of one part. -/
def Outline.locate (outline : Outline) : Walk Part := do
  Walk.skip
  match outline with
  | .nonTerminal name =>
    let lexeme ← Walk.leaf .ident name
    return .nonTerminal lexeme.span name none
  | .terminal image =>
    let lexeme ← Walk.leaf .literal image
    return .terminal lexeme.span image none
  | .labeled label inner =>
    let start ← Walk.leaf .ident label
    let _ ← Walk.expect .colon "`:`"
    let part ← inner.locate
    return part.withSpan (start.span.cover part.span)
  | .optional choices =>
    let opened ← Walk.takeOpen
    let choices ← locateChoices choices
    let operator ← Walk.expectPostfix .question "`?`"
    let span := (coverOpen opened (choicesSpan choices)).cover operator.span
    return .composite span .optional choices none
  | .zeroOrMore choices =>
    let opened ← Walk.takeOpen
    let choices ← locateChoices choices
    let operator ← Walk.expectPostfix .star "`*`"
    let span := (coverOpen opened (choicesSpan choices)).cover operator.span
    return .composite span .zeroOrMore choices none
  | .group choices =>
    let opened ← Walk.takeOpen
    let choices ← locateChoices choices
    let closed ← Walk.takeClose opened
    let span := coverClose (coverOpen opened (choicesSpan choices)) closed
    return .composite span .once choices none

/-- Walks the lexemes of a sequence of parts. -/
def locateSequence : List Outline → Walk Sequence
  | [] => return []
  | outline :: rest => do
    let part ← outline.locate
    let parts ← locateSequence rest
    return part :: parts

/-- Walks the lexemes of alternatives. -/
def locateChoices : List (List Outline) → Walk Choices
  | [] => return []
  | outlines :: rest => do
    let sequence ← locateSequence outlines
    let choices ← locateChoices rest
    return sequence :: choices

end

/-- Walks the lexemes of one production, from its name on. -/
def locateProduction (definitions : List Definition) : Walk Production := do
  Walk.clearOpens
  let name ← Walk.expect .ident "production name"
  let _ ← Walk.expect .eq "`=`"
  match ruleOf? definitions name.text with
  | none => throw (.unknownProduction name.text)
  | some rule =>
    let choices ← locateChoices rule.views.choices
    return ⟨name.text, name.span.cover (choicesSpan choices), .choices choices⟩

/-! ## All productions

The walk from production to production ends because every production takes its name off the
lexemes. That needs to know of each step that it never goes back. -/

namespace Walk

/-- What a walk leaves of the lexemes is never longer than what it found. -/
def Advances {α : Type} (walk : Walk α) : Prop :=
  ∀ cursor a after, walk.run cursor = .ok (a, after) → after.rest.length ≤ cursor.rest.length

theorem run_bind_eq_ok {α β : Type} {walk : Walk α} {next : α → Walk β} {cursor after : Cursor}
    {b : β} : (walk >>= next).run cursor = .ok (b, after) ↔
      ∃ a between, walk.run cursor = .ok (a, between) ∧
        (next a).run between = .ok (b, after) := by
  rw [StateT.run_bind]
  cases h : walk.run cursor with
  | error e => simp [bind, Except.bind]
  | ok r =>
    obtain ⟨a, between⟩ := r
    simp [bind, Except.bind, and_assoc]

theorem Advances.bind {α β : Type} {walk : Walk α} {next : α → Walk β} (h : walk.Advances)
    (hnext : ∀ a, (next a).Advances) : (walk >>= next).Advances := by
  intro cursor b after hrun
  obtain ⟨a, between, hwalk, hrest⟩ := run_bind_eq_ok.1 hrun
  exact Nat.le_trans (hnext a between b after hrest) (h cursor a between hwalk)

theorem Advances.pure {α : Type} (a : α) : (Pure.pure a : Walk α).Advances := by
  intro cursor b after hrun
  obtain ⟨-, rfl⟩ := Prod.mk.inj (Except.ok.inj hrun)
  exact Nat.le_refl _

theorem Advances.throw {α : Type} (e : GrammarError) : (throw e : Walk α).Advances := by
  intro cursor a after hrun
  cases hrun

theorem Advances.modify {f : Cursor → Cursor}
    (h : ∀ cursor, (f cursor).rest.length ≤ cursor.rest.length) :
    (modify f : Walk Unit).Advances := by
  intro cursor a after hrun
  obtain ⟨-, rfl⟩ := Prod.mk.inj (Except.ok.inj hrun)
  exact h cursor

end Walk

theorem skipPunctuation_rest_le (opens : List Span) (lexemes : List Lexeme) :
    (skipPunctuation opens lexemes).rest.length ≤ lexemes.length := by
  fun_induction skipPunctuation opens lexemes <;> simp_all <;> omega

namespace Walk

theorem advances_skip : skip.Advances :=
  Advances.modify fun cursor => skipPunctuation_rest_le cursor.opens cursor.rest

theorem advances_clearOpens : clearOpens.Advances :=
  Advances.modify fun _ => Nat.le_refl _

theorem advances_takeOpen : takeOpen.Advances := by
  intro cursor a after hrun
  obtain ⟨_, _, hget, hrun⟩ := run_bind_eq_ok.1 hrun
  obtain ⟨rfl, rfl⟩ := Prod.mk.inj (Except.ok.inj hget)
  split at hrun
  · obtain ⟨-, rfl⟩ := Prod.mk.inj (Except.ok.inj hrun)
    exact Nat.le_refl _
  · obtain ⟨-, rfl⟩ := Prod.mk.inj (Except.ok.inj hrun)
    exact Nat.le_refl _

/-- Taking a lexeme takes the first one. -/
theorem rest_of_expect {kind : LexemeKind} {expected : String} {cursor after : Cursor}
    {lexeme : Lexeme} (h : (expect kind expected).run cursor = .ok (lexeme, after)) :
    cursor.rest = lexeme :: after.rest := by
  obtain ⟨_, _, hget, hrun⟩ := run_bind_eq_ok.1 h
  obtain ⟨rfl, rfl⟩ := Prod.mk.inj (Except.ok.inj hget)
  split at hrun
  · cases hrun
  · rename_i first rest hrest
    split at hrun
    · obtain ⟨rfl, rfl⟩ := Prod.mk.inj (Except.ok.inj hrun)
      exact hrest
    · cases hrun

theorem advances_expect (kind : LexemeKind) (expected : String) :
    (expect kind expected).Advances := by
  intro cursor lexeme after hrun
  rw [rest_of_expect hrun]
  simp

theorem advances_leaf (kind : LexemeKind) (text : String) : (leaf kind text).Advances := by
  refine advances_clearOpens.bind fun _ => (advances_expect _ _).bind fun lexeme => ?_
  split
  · exact Advances.pure _
  · exact Advances.throw _

theorem advances_expectPostfix (kind : LexemeKind) (expected : String) :
    (expectPostfix kind expected).Advances :=
  (Advances.modify fun _ => (List.dropWhile_sublist _).length_le).bind fun _ =>
    advances_expect _ _

theorem advances_takeClose (opened : Option Span) : (takeClose opened).Advances := by
  intro cursor a after hrun
  obtain ⟨_, _, hget, hrun⟩ := run_bind_eq_ok.1 hrun
  obtain ⟨rfl, rfl⟩ := Prod.mk.inj (Except.ok.inj hget)
  split at hrun
  · rename_i hrest _
    split at hrun
    · obtain ⟨-, rfl⟩ := Prod.mk.inj (Except.ok.inj hrun)
      simp [hrest]
    · obtain ⟨-, rfl⟩ := Prod.mk.inj (Except.ok.inj hrun)
      exact Nat.le_refl _
  · obtain ⟨-, rfl⟩ := Prod.mk.inj (Except.ok.inj hrun)
    exact Nat.le_refl _

end Walk

mutual

theorem advances_locate : ∀ outline : Outline, outline.locate.Advances
  | .nonTerminal _ => by
    rw [Outline.locate]
    exact Walk.advances_skip.bind fun _ => (Walk.advances_leaf _ _).bind fun _ =>
      Walk.Advances.pure _
  | .terminal _ => by
    rw [Outline.locate]
    exact Walk.advances_skip.bind fun _ => (Walk.advances_leaf _ _).bind fun _ =>
      Walk.Advances.pure _
  | .labeled _ inner => by
    rw [Outline.locate]
    exact Walk.advances_skip.bind fun _ => (Walk.advances_leaf _ _).bind fun _ =>
      (Walk.advances_expect _ _).bind fun _ => (advances_locate inner).bind fun _ =>
        Walk.Advances.pure _
  | .optional choices => by
    rw [Outline.locate]
    exact Walk.advances_skip.bind fun _ => Walk.advances_takeOpen.bind fun _ =>
      (advances_locateChoices choices).bind fun _ => (Walk.advances_expectPostfix _ _).bind
        fun _ => Walk.Advances.pure _
  | .zeroOrMore choices => by
    rw [Outline.locate]
    exact Walk.advances_skip.bind fun _ => Walk.advances_takeOpen.bind fun _ =>
      (advances_locateChoices choices).bind fun _ => (Walk.advances_expectPostfix _ _).bind
        fun _ => Walk.Advances.pure _
  | .group choices => by
    rw [Outline.locate]
    exact Walk.advances_skip.bind fun _ => Walk.advances_takeOpen.bind fun _ =>
      (advances_locateChoices choices).bind fun _ => (Walk.advances_takeClose _).bind fun _ =>
        Walk.Advances.pure _

theorem advances_locateSequence : ∀ outlines : List Outline, (locateSequence outlines).Advances
  | [] => by
    rw [locateSequence]
    exact Walk.Advances.pure _
  | outline :: rest => by
    rw [locateSequence]
    exact (advances_locate outline).bind fun _ => (advances_locateSequence rest).bind fun _ =>
      Walk.Advances.pure _

theorem advances_locateChoices : ∀ choices : List (List Outline),
    (locateChoices choices).Advances
  | [] => by
    rw [locateChoices]
    exact Walk.Advances.pure _
  | outlines :: rest => by
    rw [locateChoices]
    exact (advances_locateSequence outlines).bind fun _ => (advances_locateChoices rest).bind
      fun _ => Walk.Advances.pure _

end

/-- Behind a production there are fewer lexemes than there were in front of it. -/
theorem locateProduction_rest_lt {definitions : List Definition} {cursor after : Cursor}
    {production : Production}
    (h : (locateProduction definitions).run cursor = .ok (production, after)) :
    after.rest.length < cursor.rest.length := by
  obtain ⟨_, start, hclear, h⟩ := Walk.run_bind_eq_ok.1 h
  obtain ⟨-, rfl⟩ := Prod.mk.inj (Except.ok.inj hclear)
  obtain ⟨name, behind, hname, h⟩ := Walk.run_bind_eq_ok.1 h
  have hrest := Walk.rest_of_expect hname
  have hbody : after.rest.length ≤ behind.rest.length := by
    refine Walk.Advances.bind (Walk.advances_expect _ _) (fun _ => ?_) _ _ _ h
    split
    · exact Walk.Advances.throw _
    · exact (advances_locateChoices _).bind fun _ => Walk.Advances.pure _
  simp only at hrest
  rw [hrest, List.length_cons]
  omega

/-- Walks all lexemes from the cursor on, production by production. -/
def locateAll (definitions : List Definition) (cursor : Cursor) :
    Except GrammarError (List Production) :=
  let start := skipPunctuation cursor.opens cursor.rest
  if start.rest.isEmpty then .ok []
  else
    match _h : (locateProduction definitions).run start with
    | .error e => .error e
    | .ok (production, after) => do
      let productions ← locateAll definitions after
      return production :: productions
termination_by cursor.rest.length
decreasing_by
  exact Nat.lt_of_lt_of_le (locateProduction_rest_lt _h) (skipPunctuation_rest_le _ _)

/-- Reads a grammar from its text. -/
def Grammar.ofText (text : String) : Except GrammarError Grammar := do
  let definitions ← (readNotation text).mapError .invalid
  let lexemes ← (tokenize text).mapError .lexical
  let productions ← locateAll definitions ⟨lexemes.lexemes, []⟩
  return ⟨productions, lexemes.comments⟩

/-- Reads a grammar from its text, and reports what was read. -/
def Grammar.load (text : String) : Logged (Except GrammarError Grammar) :=
  match Grammar.ofText text with
  | .ok grammar => do
    Logged.report (.read grammar.productions.length grammar.comments.length)
    return .ok grammar
  | .error e => return .error e

end TreeSmith

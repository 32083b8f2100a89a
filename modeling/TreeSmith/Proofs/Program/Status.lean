import TreeSmith.Program
import TreeSmith.Proofs.Generation.FromText
import TreeSmith.Proofs.Lexical.Boundaries
import TreeSmith.Proofs.Nesting
import TreeSmith.Proofs.Output.DryRun

/-!
# TreeSmith.Proofs.Program.Status

**What the status of a run says.** A run with accepted arguments reads a grammar, generates an
output from it, and brings the files up to date or checks them. It ends with status 0 if and only
if all of that succeeds, and touches the disk in the last of these steps alone (`status_run`). No
run puts a file where there is no directory for it (`isTree_run`).

A run can end in two ways (`runAccepted_cases`): before anything is written, or with the result of
writing. In both it has printed the diagnostics of the generation, each at a line and column of the
text of the grammar, since the places of a grammar that was read from a text are those of lexemes.
-/

namespace TreeSmith

/-! ## What comes before writing -/

/-- The grammar file is a text, the text is a grammar, and the output is generated from it. -/
inductive Prepared (accepted : Arguments) (disk : Disk) : Output → Prop
  | of {source : String} {grammar : Grammar} {output : Output}
      (read : disk.readText ⟨accepted.grammar⟩ = .ok source)
      (parsed : Grammar.ofText source = .ok grammar)
      (generated : (generate accepted.config grammar).value.outcome = .ok output) :
      Prepared accepted disk output

/-- One of these steps fails. -/
inductive Unprepared (accepted : Arguments) (disk : Disk) : Prop
  | unreadable {e : DiskError} (h : disk.readText ⟨accepted.grammar⟩ = .error e)
  | rejected {source : String} {e : GrammarError}
      (read : disk.readText ⟨accepted.grammar⟩ = .ok source)
      (h : Grammar.ofText source = .error e)
  | ungenerated {source : String} {grammar : Grammar} {e : GenerationError}
      (read : disk.readText ⟨accepted.grammar⟩ = .ok source)
      (parsed : Grammar.ofText source = .ok grammar)
      (h : (generate accepted.config grammar).value.outcome = .error e)

theorem Prepared.not_unprepared {accepted : Arguments} {disk : Disk} {output : Output}
    (h : Prepared accepted disk output) : ¬ Unprepared accepted disk := by
  obtain ⟨hread, hparsed, hgenerated⟩ := h
  intro hfails
  cases hfails with
  | unreadable h => rw [hread] at h; cases h
  | rejected read h =>
      obtain rfl := Except.ok.inj (hread.symm.trans read)
      rw [hparsed] at h
      cases h
  | ungenerated read parsed h =>
      obtain rfl := Except.ok.inj (hread.symm.trans read)
      obtain rfl := Except.ok.inj (hparsed.symm.trans parsed)
      rw [hgenerated] at h
      cases h

theorem Prepared.eq {accepted : Arguments} {disk : Disk} {one other : Output}
    (h : Prepared accepted disk one) (h' : Prepared accepted disk other) : one = other := by
  obtain ⟨hread, hparsed, hgenerated⟩ := h
  obtain ⟨hread', hparsed', hgenerated'⟩ := h'
  obtain rfl := Except.ok.inj (hread.symm.trans hread')
  obtain rfl := Except.ok.inj (hparsed.symm.trans hparsed')
  exact Except.ok.inj (hgenerated.symm.trans hgenerated')

/-- The diagnostics that a run comes to, each with the text that it is about. -/
def reported (accepted : Arguments) (disk : Disk) : List (String × Diagnostic) :=
  match disk.readText ⟨accepted.grammar⟩ with
  | .error _ => []
  | .ok source =>
    match Grammar.ofText source with
    | .error _ => []
    | .ok grammar => (generate accepted.config grammar).value.diagnostics.map (source, ·)

/-- The line shows a diagnostic at its line and column in the text of the grammar. -/
def Diagnostic.ShownAs (d : Diagnostic) (path source line : String) : Prop :=
  ∃ span place, d.span = some span ∧ Text.LiesAt source.toList span.start place ∧
    line = path ++ (":" ++ toString place.line ++ ":" ++ toString place.column) ++ ": " ++
      d.severity.render ++ ": " ++ d.message

/-! ### Where diagnostics are -/

/-- Without dangling references, the first problem is at the place of a production. -/
theorem FirstProblem.exists_production {config : Config} {grammar : Grammar}
    {e : GenerationError} {span : Span} (h : FirstProblem config grammar e span)
    (hreferenced : grammar.WellReferenced) :
    ∃ production ∈ grammar.productions, production.span = span := by
  cases h with
  | @name before after production e hsplit _ hfault =>
      exact ⟨production, by simp [hsplit], rfl⟩
  | @reference before after production earlier later span name code _ hsplit _ hparts _
      hdangling =>
      have hproduction : production ∈ grammar.productions := by simp [hsplit]
      have hpart : .nonTerminal span name code ∈ production.preorder := by simp [hparts]
      exact absurd (hreferenced production hproduction _ hpart) hdangling

/-- The productions of a text start at the start of a character. -/
theorem isBoundary_of_ofText {text : String} {grammar : Grammar}
    (h : Grammar.ofText text = .ok grammar) : ∀ production ∈ grammar.productions,
      Text.IsBoundary text.toList production.span.start := by
  obtain ⟨definitions, lexemes, productions, hwritten, rfl⟩ := exists_written_of_ofText h
  intro production hproduction
  obtain ⟨written, hmem, rfl⟩ := List.mem_map.1 hproduction
  have hnested := nested_production hwritten.proper (hwritten.situated hmem)
  obtain ⟨lexeme, hlexeme, hstart⟩ := hnested.proper.starts
  rw [← hstart]
  exact (isBoundary_of_tokenize hwritten.tokenize lexeme hlexeme).1

/-- The diagnostics about a text are at places in it. -/
theorem isBoundary_of_diagnostic {config : Config} {text : String} {grammar : Grammar}
    (h : Grammar.ofText text = .ok grammar) {d : Diagnostic}
    (hd : d ∈ (generate config grammar).value.diagnostics) :
    ∃ span, d.span = some span ∧ Text.IsBoundary text.toList span.start := by
  have hreferenced : grammar.WellReferenced := by
    obtain ⟨_, _, _, hwritten, rfl⟩ := exists_written_of_ofText h
    exact hwritten.wellReferenced
  cases hfound : foundProblem? config grammar with
  | none =>
      obtain ⟨output, hvalue⟩ := exists_output_of_none hfound
      rw [hvalue] at hd
      exact absurd hd List.not_mem_nil
  | some problem =>
      obtain ⟨e, span⟩ := problem
      rw [value_generate_of_some hfound] at hd
      obtain rfl := List.mem_singleton.1 hd
      obtain ⟨production, hproduction, rfl⟩ :=
        (firstProblem?_eq_some.1 hfound).exists_production hreferenced
      exact ⟨_, rfl, isBoundary_of_ofText h production hproduction⟩

theorem shownAs_diagnosticLine {config : Config} {path source : String} {grammar : Grammar}
    (hparsed : Grammar.ofText source = .ok grammar) {d : Diagnostic}
    (hd : d ∈ (generate config grammar).value.diagnostics) :
    d.ShownAs path source (diagnosticLine path source d) := by
  obtain ⟨span, hspan, hboundary⟩ := isBoundary_of_diagnostic hparsed hd
  refine ⟨span, _, hspan, Text.liesAt_lineColumn hboundary, ?_⟩
  rw [diagnosticLine, hspan]

/-! ## What is printed -/

/-- A message, if it is a line for the user. -/
def Message.line? : Message → Option String
  | event _ => none
  | text line => some line

/-- The lines for the user among some messages. -/
def linesOf (messages : List Message) : List String :=
  messages.filterMap Message.line?

@[simp] theorem linesOf_append (one two : List Message) :
    linesOf (one ++ two) = linesOf one ++ linesOf two :=
  List.filterMap_append

@[simp] theorem linesOf_events (events : List Event) : linesOf (events.map Message.event) = [] := by
  rw [linesOf, List.filterMap_map]
  exact List.filterMap_eq_nil_iff.2 fun _ _ => rfl

@[simp] theorem linesOf_texts {α : Type} (line : α → String) (items : List α) :
    linesOf (items.map fun item => .text (line item)) = items.map line := by
  rw [linesOf, List.filterMap_map]
  exact congrFun List.filterMap_eq_map' items

/-- Lines for the user are shown at any verbosity. -/
@[simp] theorem linesOf_filter_isShown (verbose : Nat) (messages : List Message) :
    linesOf (messages.filter (Message.isShown verbose)) = linesOf messages := by
  rw [linesOf, List.filterMap_filter]
  refine List.filterMap_congr fun message _ => ?_
  cases message with
  | event => simp [Message.line?]
  | text => rfl

section Run

variable {accepted : Arguments} {disk : Disk}

theorem value_load (text : String) : (Grammar.load text).value = Grammar.ofText text := by
  rw [Grammar.load]
  cases Grammar.ofText text <;> rfl

/-- A text that is rejected leads to nothing. -/
theorem prepare_of_error (accepted : Arguments) {source : String} {e : GrammarError}
    (h : Grammar.ofText source = .error e) :
    linesOf (prepare accepted source).messages = [] ∧
      (prepare accepted source).result = .error e.message := by
  rw [prepare, value_load, h]
  exact ⟨linesOf_events _, rfl⟩

/-- A grammar leads to what is generated from it. A successful generation reports no diagnostics, so
none of them can be an error. -/
theorem prepare_of_ok (accepted : Arguments) {source : String} {grammar : Grammar}
    (h : Grammar.ofText source = .ok grammar) :
    linesOf (prepare accepted source).messages =
        (generate accepted.config grammar).value.diagnostics.map
          (diagnosticLine accepted.grammar source) ∧
      (prepare accepted source).result =
        (generate accepted.config grammar).value.outcome.mapError GenerationError.message := by
  have hlines : ∀ (events : List Event) (diagnostics : List Diagnostic),
      linesOf (events.map .event ++ diagnostics.map fun d =>
        .text (diagnosticLine accepted.grammar source d)) =
        diagnostics.map (diagnosticLine accepted.grammar source) := by
    intro events diagnostics
    rw [linesOf_append, linesOf_events, linesOf_texts, List.nil_append]
  rw [prepare, value_load, h]
  cases hfound : foundProblem? accepted.config grammar with
  | none =>
      obtain ⟨output, hvalue⟩ := exists_output_of_none hfound
      simp only [hvalue]
      exact ⟨hlines _ _, rfl⟩
  | some problem =>
      simp only [value_generate_of_some hfound]
      exact ⟨hlines _ _, rfl⟩

/-- The result of a run that got to the files. -/
def conclusion (accepted : Arguments) : Except DiskError Nat → Except String Unit
  | .error e => .error e.message
  | .ok stale => conclude accepted stale

theorem conclusion_eq_ok {result : Except DiskError Nat} : conclusion accepted result = .ok () ↔
    ∃ stale, result = .ok stale ∧ (accepted.check = true → stale = 0) := by
  cases result with
  | error e => simp [conclusion]
  | ok stale =>
      cases hcheck : accepted.check <;> cases stale <;> simp [conclusion, conclude, hcheck]

/-! ### Where a run ends -/

theorem run_readText_diskHost (path : Path) (told : Told) :
    (diskHost.readText path).run told =
      ((told.disk.readText path).mapError DiskError.message, told) := rfl

theorem runAccepted_of_unreadable {e : DiskError}
    (hread : disk.readText ⟨accepted.grammar⟩ = .error e) :
    runAccepted accepted disk =
      finish accepted [] (.error (accepted.grammar ++ ": " ++ e.message)) disk := by
  have hperform : (diskHost.perform accepted).run ⟨disk, []⟩ =
      (.error (accepted.grammar ++ ": " ++ e.message), ⟨disk, []⟩) := by
    rw [Host.perform, StateT.run_bind, run_readText_diskHost, hread]
    rfl
  rw [runAccepted, hperform]

theorem run_perform_of_ok {source : String}
    (hread : disk.readText ⟨accepted.grammar⟩ = .ok source) :
    (diskHost.perform accepted).run ⟨disk, []⟩ =
      (diskHost.performOn accepted source).run ⟨disk, []⟩ := by
  rw [Host.perform, StateT.run_bind, run_readText_diskHost, hread]
  rfl

theorem runAccepted_of_error {source reason : String}
    (hread : disk.readText ⟨accepted.grammar⟩ = .ok source)
    (hresult : (prepare accepted source).result = .error reason) :
    runAccepted accepted disk =
      finish accepted (prepare accepted source).messages (.error reason) disk := by
  have hperform : (diskHost.performOn accepted source).run ⟨disk, []⟩ =
      (.error reason, ⟨disk, (prepare accepted source).messages⟩) := by
    rw [Host.performOn, hresult]
    rfl
  rw [runAccepted, run_perform_of_ok hread, hperform]

theorem runAccepted_of_ok {source : String} {output : Output} {result : Except DiskError Nat}
    {after : Disk} (hread : disk.readText ⟨accepted.grammar⟩ = .ok source)
    (hresult : (prepare accepted source).result = .ok output)
    (hwritten : ((writeOutput output accepted.config accepted.nodesDir accepted.visitorDir
      accepted.check).run.run disk).value = (result, after)) :
    ∃ events : List Event, runAccepted accepted disk =
      finish accepted ((prepare accepted source).messages ++ events.map .event)
        (conclusion accepted result) after := by
  have hsay : (diskHost.say (prepare accepted source).messages).run ⟨disk, []⟩ =
      pure ((), ⟨disk, (prepare accepted source).messages⟩) := rfl
  obtain ⟨events, hwork⟩ : ∃ events : List Event,
      (diskHost.writeOutput accepted output).run ⟨disk, (prepare accepted source).messages⟩ =
        pure (result.mapError DiskError.message,
          ⟨after, (prepare accepted source).messages ++ events.map .event⟩) := by
    obtain ⟨rfl, rfl⟩ := Prod.mk.inj hwritten
    exact ⟨_, rfl⟩
  have hperform : (diskHost.performOn accepted source).run ⟨disk, []⟩ =
      (conclusion accepted result,
        ⟨after, (prepare accepted source).messages ++ events.map .event⟩) := by
    rw [Host.performOn, hresult, StateT.run_bind, hsay, pure_bind, StateT.run_bind, hwork,
      pure_bind]
    cases result <;> rfl
  refine ⟨events, ?_⟩
  rw [runAccepted, run_perform_of_ok hread, hperform]

/-- The lines that show the diagnostics. -/
def reportedLines (accepted : Arguments) (disk : Disk) : List String :=
  (reported accepted disk).map fun (source, d) => diagnosticLine accepted.grammar source d

/-- **A run ends before anything is written, or with the result of writing.** In both cases it has
printed the diagnostics. -/
theorem runAccepted_cases (accepted : Arguments) (disk : Disk) : ∃ messages,
    linesOf messages = reportedLines accepted disk ∧
    ((Unprepared accepted disk ∧ ∃ reason,
        runAccepted accepted disk = finish accepted messages (.error reason) disk) ∨
      ∃ output result after, Prepared accepted disk output ∧
        ((writeOutput output accepted.config accepted.nodesDir accepted.visitorDir
          accepted.check).run.run disk).value = (result, after) ∧
        runAccepted accepted disk =
          finish accepted messages (conclusion accepted result) after) := by
  cases hread : disk.readText ⟨accepted.grammar⟩ with
  | error e =>
      refine ⟨[], ?_, Or.inl ⟨.unreadable hread, accepted.grammar ++ ": " ++ e.message, ?_⟩⟩
      · rw [reportedLines, reported, hread]
        rfl
      · exact runAccepted_of_unreadable hread
  | ok source =>
      cases hparsed : Grammar.ofText source with
      | error e =>
          obtain ⟨hlines, hresult⟩ := prepare_of_error accepted hparsed
          refine ⟨_, ?_, Or.inl ⟨.rejected hread hparsed, _, runAccepted_of_error hread hresult⟩⟩
          rw [hlines, reportedLines, reported, hread]
          simp only [hparsed, List.map_nil]
      | ok grammar =>
          obtain ⟨hlines, hresult⟩ := prepare_of_ok accepted hparsed
          have hreported : linesOf (prepare accepted source).messages =
              reportedLines accepted disk := by
            rw [hlines, reportedLines, reported, hread]
            simp only [hparsed, List.map_map]
            rfl
          cases hgenerated : (generate accepted.config grammar).value.outcome with
          | error e =>
              rw [hgenerated] at hresult
              exact ⟨_, hreported, Or.inl ⟨.ungenerated hread hparsed hgenerated, _,
                runAccepted_of_error hread hresult⟩⟩
          | ok output =>
              rw [hgenerated] at hresult
              obtain ⟨events, hrun⟩ := runAccepted_of_ok hread hresult rfl
              refine ⟨_, ?_, Or.inr ⟨output, _, _, .of hread hparsed hgenerated, rfl, hrun⟩⟩
              rw [linesOf_append, linesOf_events, List.append_nil, hreported]

theorem forall₂_reportedLines (accepted : Arguments) (disk : Disk) :
    List.Forall₂ (fun (source, d) line => d.ShownAs accepted.grammar source line)
      (reported accepted disk) (reportedLines accepted disk) := by
  rw [reportedLines, List.forall₂_map_right_iff, List.forall₂_same]
  intro (source, d) hd
  rw [reported] at hd
  cases hread : disk.readText ⟨accepted.grammar⟩ with
  | error e => simp [hread] at hd
  | ok source' =>
      rw [hread] at hd
      cases hparsed : Grammar.ofText source' with
      | error e => simp [hparsed] at hd
      | ok grammar =>
          simp only [hparsed] at hd
          obtain ⟨d, hd, he⟩ := List.mem_map.1 hd
          cases he
          exact shownAs_diagnosticLine hparsed hd

theorem disk_finish (messages : List Message) (result : Except String Unit) (disk : Disk) :
    (finish accepted messages result disk).disk = disk := by
  rfl

theorem status_finish_eq_zero {messages : List Message} {result : Except String Unit}
    {disk : Disk} : (finish accepted messages result disk).status = 0 ↔ result = .ok () := by
  cases result <;> simp [finish, statusOf]

theorem linesOf_finish (messages : List Message) (result : Except String Unit) (disk : Disk) :
    (finish accepted messages result disk).status = 0 ∧
        linesOf (finish accepted messages result disk).messages = linesOf messages ∨
      (finish accepted messages result disk).status = 1 ∧ ∃ reason,
        linesOf (finish accepted messages result disk).messages =
          linesOf messages ++ ["error: " ++ reason] := by
  rw [finish, linesOf_append, linesOf_filter_isShown]
  cases result with
  | ok => exact Or.inl ⟨rfl, List.append_nil _⟩
  | error reason => exact Or.inr ⟨rfl, reason, rfl⟩

theorem runAccepted_of_unprepared (h : Unprepared accepted disk) :
    (runAccepted accepted disk).status = 1 ∧ (runAccepted accepted disk).disk = disk := by
  obtain ⟨messages, -, ⟨-, reason, hrun⟩ | ⟨output, _, _, hprepared, -, -⟩⟩ :=
    runAccepted_cases accepted disk
  · rw [hrun]
    exact ⟨rfl, rfl⟩
  · exact absurd h hprepared.not_unprepared

theorem status_runAccepted_eq_zero : (runAccepted accepted disk).status = 0 ↔
    ∃ output stale after, Prepared accepted disk output ∧
      ((writeOutput output accepted.config accepted.nodesDir accepted.visitorDir
        accepted.check).run.run disk).value = (.ok stale, after) ∧
      (accepted.check = true → stale = 0) := by
  obtain ⟨messages, -, ⟨hunprepared, reason, hrun⟩ |
    ⟨output, result, after, hprepared, hwritten, hrun⟩⟩ := runAccepted_cases accepted disk
  · rw [hrun, status_finish_eq_zero]
    constructor
    · intro hfails
      cases hfails
    · rintro ⟨output, stale, after, hprepared, -⟩
      exact absurd hunprepared hprepared.not_unprepared
  · rw [hrun, status_finish_eq_zero, conclusion_eq_ok]
    constructor
    · rintro ⟨stale, rfl, hstale⟩
      exact ⟨output, stale, after, hprepared, hwritten, hstale⟩
    · rintro ⟨other, stale, after', hother, hwritten', hstale⟩
      obtain rfl := hprepared.eq hother
      rw [hwritten] at hwritten'
      exact ⟨stale, (Prod.mk.inj hwritten').1, hstale⟩

/-- A check leaves the disk alone. -/
theorem disk_runAccepted_of_check (hcheck : accepted.check = true) :
    (runAccepted accepted disk).disk = disk := by
  obtain ⟨messages, -, ⟨-, reason, hrun⟩ | ⟨output, result, after, -, hwritten, hrun⟩⟩ :=
    runAccepted_cases accepted disk
  · rw [hrun, disk_finish]
  · rw [hcheck, value_writeOutput_check] at hwritten
    rw [hrun, disk_finish]
    exact (Prod.mk.inj hwritten).2.symm

theorem isTree_runAccepted (accepted : Arguments) (h : disk.IsTree) :
    (runAccepted accepted disk).disk.IsTree := by
  obtain ⟨messages, -, ⟨-, reason, hrun⟩ | ⟨output, result, after, -, hwritten, hrun⟩⟩ :=
    runAccepted_cases accepted disk
  · rw [hrun, disk_finish]
    exact h
  · rw [value_writeOutput] at hwritten
    have htree := isTree_ensureFiles h (outputFiles output accepted.config accepted.nodesDir
      accepted.visitorDir) accepted.check
    rw [hwritten] at htree
    rw [hrun, disk_finish]
    exact htree

/-- The lines of a run show the diagnostics and, if a step failed, the reason behind them. -/
theorem linesOf_runAccepted (accepted : Arguments) (disk : Disk) :
    (runAccepted accepted disk).status = 0 ∧
        linesOf (runAccepted accepted disk).messages = reportedLines accepted disk ∨
      (runAccepted accepted disk).status = 1 ∧ ∃ reason,
        linesOf (runAccepted accepted disk).messages =
          reportedLines accepted disk ++ ["error: " ++ reason] := by
  obtain ⟨messages, hlines, ⟨-, reason, hrun⟩ | ⟨output, result, after, -, -, hrun⟩⟩ :=
    runAccepted_cases accepted disk
  · rw [hrun, ← hlines]
    exact linesOf_finish _ _ _
  · rw [hrun, ← hlines]
    exact linesOf_finish _ _ _

end Run

/-- **Every run leaves a tree a tree**, at whatever step it fails. -/
theorem isTree_run (arguments : List String) {disk : Disk} (h : disk.IsTree) :
    (run arguments disk).disk.IsTree := by
  rw [run]
  split
  · exact h
  · exact isTree_runAccepted _ h

/-! ## The status of a run -/

/-- **What the status of a run says.** A run that fails before it gets to the files ends with status
1, and leaves the disk alone. A check always leaves it alone, and ends with status 0 if and only if
all files hold their contents, up to the kind of their line ends; an update does so if and only if
it writes all that is to be written. The lines of a run are the diagnostics, each at a line and
column of the text of the grammar, and if a step failed its reason. -/
theorem status_run (arguments : List String) (accepted : Arguments) (disk : Disk)
    (h : readArguments arguments = .ok accepted) :
    let outcome := run arguments disk
    let files (output : Output) :=
      outputFiles output accepted.config accepted.nodesDir accepted.visitorDir
    let work (output : Output) :=
      writeOutput output accepted.config accepted.nodesDir accepted.visitorDir accepted.check
    (Unprepared accepted disk → outcome.status = 1 ∧ outcome.disk = disk) ∧
    (accepted.check = true → outcome.disk = disk ∧
      (outcome.status = 0 ↔ ∃ output, Prepared accepted disk output ∧
        ∀ file ∈ files output, disk.holds file.path file.contents = true)) ∧
    (accepted.check = false →
      (outcome.status = 0 ↔ ∃ output stale after, Prepared accepted disk output ∧
        ((work output).run.run disk).value = (.ok stale, after))) ∧
    ∃ shown, List.Forall₂ (fun (source, d) line => d.ShownAs accepted.grammar source line)
        (reported accepted disk) shown ∧
      (outcome.status = 0 ∧ linesOf outcome.messages = shown ∨
        outcome.status = 1 ∧ ∃ reason,
          linesOf outcome.messages = shown ++ ["error: " ++ reason]) := by
  intro outcome files work
  have haccept : accept arguments = .ok accepted := by simp only [accept, h]
  have hrun : outcome = runAccepted accepted disk := by simp only [outcome, run, haccept]
  rw [hrun]
  refine ⟨runAccepted_of_unprepared, fun hcheck => ⟨disk_runAccepted_of_check hcheck, ?_⟩,
    fun hupdate => ?_, _, forall₂_reportedLines accepted disk,
    linesOf_runAccepted accepted disk⟩
  · rw [status_runAccepted_eq_zero]
    simp only [hcheck, value_writeOutput_check, true_implies]
    constructor
    · rintro ⟨output, _, _, hprepared, hvalue, rfl⟩
      exact ⟨output, hprepared, Disk.length_staleAmong_eq_zero.1
        (Except.ok.inj (Prod.mk.inj hvalue).1)⟩
    · rintro ⟨output, hprepared, hholds⟩
      rw [← Disk.length_staleAmong_eq_zero] at hholds
      exact ⟨output, _, _, hprepared, rfl, hholds⟩
  · rw [status_runAccepted_eq_zero]
    simp only [hupdate, Bool.false_eq_true, false_implies, and_true, work]

/-- A reserved name behind a character of two bytes. -/
theorem status_run_reserved : ∃ (accepted : Arguments) (disk : Disk) (d : Diagnostic),
    accepted = { grammar := "g", check := true } ∧
    disk = ⟨⟨["w"]⟩, [(⟨["w", "g"]⟩, .file "A = 'é' NodeList = 'x'".toUTF8)]⟩ ∧
    d = ⟨.error, "`NodeList` is reserved for a support type", some ⟨9, 23⟩⟩ ∧
    (run ["--check", "g"] disk).status = 1 ∧ (run ["--check", "g"] disk).disk = disk ∧
    ∃ line reason, linesOf (run ["--check", "g"] disk).messages = [line, "error: " ++ reason] ∧
      d.ShownAs "g" "A = 'é' NodeList = 'x'" line := by
  obtain ⟨accepted, haccepted⟩ : ∃ accepted : Arguments,
      accepted = { grammar := "g", check := true } := ⟨_, rfl⟩
  obtain ⟨disk, hdisk⟩ : ∃ disk : Disk,
      disk = ⟨⟨["w"]⟩, [(⟨["w", "g"]⟩, .file "A = 'é' NodeList = 'x'".toUTF8)]⟩ := ⟨_, rfl⟩
  have hread : disk.readText ⟨accepted.grammar⟩ = .ok "A = 'é' NodeList = 'x'" := by
    rw [haccepted, hdisk]
    exact Disk.readText_eq_ok.2 ⟨_, rfl, fromUTF8?_toUTF8 _⟩
  obtain ⟨grammar, hgrammar⟩ : ∃ grammar : Grammar, grammar =
      ⟨[⟨"A", ⟨0, 8⟩, .choices [[.terminal ⟨4, 8⟩ "é" none]]⟩,
        ⟨"NodeList", ⟨9, 23⟩, .choices [[.terminal ⟨20, 23⟩ "x" none]]⟩], []⟩ := ⟨_, rfl⟩
  have hparsed : Grammar.ofText "A = 'é' NodeList = 'x'" = .ok grammar := by
    rw [hgrammar]
    cbv
  have hfound : foundProblem? accepted.config grammar =
      some (.reservedName "NodeList", ⟨9, 23⟩) := by
    rw [haccepted, hgrammar]
    decide
  have hgenerated := value_generate_of_some hfound
  have hreported : reported accepted disk = [("A = 'é' NodeList = 'x'",
      ⟨.error, "`NodeList` is reserved for a support type", some ⟨9, 23⟩⟩)] := by
    rw [reported, hread]
    simp only [hparsed, hgenerated]
    rfl
  obtain ⟨hfails, -, -, shown, hshown, hlines⟩ :=
    status_run ["--check", "g"] accepted disk (haccepted ▸ rfl)
  obtain ⟨hstatus, hsame⟩ := hfails <|
    .ungenerated hread hparsed (congrArg Generation.outcome hgenerated)
  rw [hreported] at hshown
  obtain ⟨line, _, hline, hrest, rfl⟩ := List.forall₂_cons_left_iff.1 hshown
  obtain rfl := List.forall₂_nil_left_iff.1 hrest
  refine ⟨accepted, disk, _, haccepted, hdisk, rfl, hstatus, hsame, line, ?_⟩
  rcases hlines with ⟨hzero, -⟩ | ⟨-, reason, hlines⟩
  · rw [hstatus] at hzero
    cases hzero
  · rw [haccepted] at hline
    exact ⟨reason, hlines, hline⟩

end TreeSmith

import TreeSmith.Proofs.Written.Reading
import TreeSmith.Proofs.Written.Walk

/-!
# TreeSmith.Proofs.Written.Text

**A text in the notation is written productions.** What the notation's reader says about a text,
what the lexer says and what the cursor makes of both are here brought together: if the text is in
the notation, its lexemes are written productions, one for each definition, and the grammar that is
read from it consists of exactly these, each with its spans (`exists_written`). If it is not, no
grammar is read (`ofText_of_fault`).
-/

namespace TreeSmith

/-- What a text says, once it is known to be in the notation. -/
structure TextWritten (text : String) (definitions : List Definition) (lexemes : Lexemes)
    (productions : List WrittenProduction) : Prop where
  reads : readNotation text = .ok definitions
  spells : ∃ tokens, ruleTokens text = .ok tokens ∧ List.Forall₂ Spells tokens lexemes.lexemes
  tokenize : tokenize text = .ok lexemes
  lexemes_eq : lexemes.lexemes = writtenLexemes productions
  writtenFor : List.Forall₂ WrittenFor definitions productions
  names_nodup : (definitions.map Definition.name).Nodup
  ofText : Grammar.ofText text =
    .ok ⟨productions.map WrittenProduction.place, lexemes.comments⟩

/-- Among definitions of different names, each one's rule is found by its name. -/
theorem ruleOf?_of_mem {definitions : List Definition}
    (hnodup : (definitions.map Definition.name).Nodup) {definition : Definition}
    (h : definition ∈ definitions) :
    ruleOf? definitions definition.name = some definition.rule := by
  induction definitions with
  | nil => exact absurd h List.not_mem_nil
  | cons first others ih =>
      rw [List.map_cons, List.nodup_cons] at hnodup
      rcases List.mem_cons.1 h with rfl | hother
      · simp [ruleOf?]
      · have hne : first.name ≠ definition.name := by
          intro heq
          rw [heq] at hnodup
          exact hnodup.1 (List.mem_map_of_mem hother)
        have hrule := ih hnodup.2 hother
        rw [ruleOf?] at hrule ⊢
        rw [List.find?_cons_of_neg (by simpa using hne)]
        exact hrule

theorem definedAsWritten_of_writtenFor {definitions : List Definition}
    {productions : List WrittenProduction} (hnodup : (definitions.map Definition.name).Nodup)
    (h : List.Forall₂ WrittenFor definitions productions) :
    ∀ production ∈ productions, DefinedAsWritten definitions production := by
  intro production hproduction
  obtain ⟨definition, hdefinition, hwritten⟩ := exists_mem_of_forall₂ h hproduction
  refine ⟨definition.rule, ?_, hwritten.outlines⟩
  rw [← hwritten.name]
  exact ruleOf?_of_mem hnodup hdefinition

/-- What is not in the notation is no grammar, for the same reason. -/
theorem ofText_of_fault {text : String} {fault : RuleError}
    (h : readNotation text = .error fault) : Grammar.ofText text = .error (.invalid fault) := by
  rw [Grammar.ofText, h]
  rfl

/-- **A text in the notation is written productions**, and the grammar read from it is these. -/
theorem exists_written {text : String} {definitions : List Definition}
    (h : readNotation text = .ok definitions) :
    ∃ lexemes productions, TextWritten text definitions lexemes productions := by
  obtain ⟨tokens, htokens, hread⟩ := bind_eq_ok_iff.1 h
  obtain ⟨found, hdefinitions, hread⟩ := bind_eq_ok_iff.1 hread
  obtain rfl : found = definitions := by
    split at hread
    · cases hread
    · exact Except.ok.inj hread
  obtain ⟨lexemes, htokenize, hspells⟩ := tokenize_of_ruleTokens htokens
  obtain ⟨productions, hlexemes, hwritten⟩ := written_of_readDefinitions hdefinitions hspells
  have hnodup := (names_of_readDefinitions hdefinitions).1
  refine ⟨lexemes, productions, h, ⟨tokens, htokens, hspells⟩, htokenize, hlexemes, hwritten,
    hnodup, ?_⟩
  have hlocate := locateAll_written (definedAsWritten_of_writtenFor hnodup hwritten) []
  rw [List.map_nil, List.nil_append, ← hlexemes] at hlocate
  rw [Grammar.ofText, h, htokenize]
  simp only [Except.mapError, bind, Except.bind]
  rw [hlocate]
  rfl

/-- Whatever is read as a grammar is written productions. -/
theorem exists_written_of_ofText {text : String} {grammar : Grammar}
    (h : Grammar.ofText text = .ok grammar) :
    ∃ definitions lexemes productions, TextWritten text definitions lexemes productions ∧
      grammar = ⟨productions.map WrittenProduction.place, lexemes.comments⟩ := by
  cases hread : readNotation text with
  | error fault =>
      rw [ofText_of_fault hread] at h
      cases h
  | ok definitions =>
      obtain ⟨lexemes, productions, hwritten⟩ := exists_written hread
      refine ⟨definitions, lexemes, productions, hwritten, ?_⟩
      rw [hwritten.ofText] at h
      exact (Except.ok.inj h).symm

end TreeSmith

import TreeSmith.Proofs.Generation.UnitNames

/-!
# TreeSmith.Proofs.Generation.CapturedNames

**Names that generated code borrows, and node types that take them over.** Generated code also
mentions names that no unit of the output has: the type parameters of the visitors and a few classes
of the Java library (`Config.borrowedNames`). A node type with one of these names captures it.

The name table knows the names of the generated units and the reserved words, and nothing else. So a
pass keeps node types away from those, and it leaves the borrowed names to the grammar: a name is
captured if it is the name of a production, prefix and suffix included (`generate_captures`), and
every name that can be claimed at all is captured for some grammar (`exists_captures_iff`).
-/

namespace TreeSmith

/-- The classes of the Java library that generated code mentions. -/
def libraryNames : List String := ["String", "ArrayList", "Error", "Override"]

/-- The names in generated code that are meant to be none of its units: the type parameters, and
classes of the library. -/
def Config.borrowedNames (config : Config) : List String :=
  config.retType :: config.arguType :: libraryNames

/-- A node type has this name, so the name denotes that class in generated code. -/
def Output.Captures (output : Output) (name : String) : Prop :=
  ∃ unit ∈ output.nodeTypes, unit.name = name

section Assembled

variable (config : Config) (comments : List Comment) (productions : List Production)

/-- What is captured are the names of productions, with their decoration. -/
theorem captures_assemble {name : String} :
    (assemble config (productions.map (share config comments))).Captures name ↔
      ∃ production ∈ productions, config.typeName production.name = name := by
  have hnames := nodeTypeNames_assemble config comments productions
  constructor
  · rintro ⟨unit, hunit, rfl⟩
    have hname := List.mem_map_of_mem (f := CompilationUnit.name) hunit
    rw [hnames] at hname
    exact List.mem_map.1 hname
  · rintro ⟨production, hproduction, rfl⟩
    have hname : config.typeName production.name ∈
        (assemble config (productions.map (share config comments))).nodeTypes.map
          CompilationUnit.name := by
      rw [hnames]
      exact List.mem_map.2 ⟨production, hproduction, rfl⟩
    exact List.mem_map.1 hname

end Assembled

/-! ## Names that can be captured -/

/-- The grammar with one production, of this name, that is code alone. -/
def Grammar.named (name : String) : Grammar :=
  ⟨[⟨name, ⟨0, 0⟩, .code ""⟩], []⟩

/-- One name that can be claimed is all that it takes. -/
theorem wellNamed_named {config : Config} {name : String}
    (hidentifier : Java.isIdentifier (config.typeName name) = true)
    (hunreserved : config.typeName name ∉ config.reservedNames) :
    WellNamed config (Grammar.named name).productions := by
  refine ⟨?_, ?_, List.nodup_cons.2 ⟨List.not_mem_nil, List.nodup_nil⟩⟩
  · intro production hproduction
    rw [List.mem_singleton.1 hproduction]
    exact hidentifier
  · intro production hproduction
    rw [List.mem_singleton.1 hproduction]
    exact hunreserved

/-- Code refers to nothing. -/
theorem wellReferenced_named (name : String) : (Grammar.named name).WellReferenced := by
  intro production hproduction part hpart
  rw [List.mem_singleton.1 hproduction] at hpart
  cases hpart

/-- **Every name that can be claimed can be captured**: an identifier that is not reserved and that
prefix and suffix leave to be chosen. Borrowed names are no exception. -/
theorem exists_captures_iff (config : Config) (name : String) :
    (∃ grammar output, (generate config grammar).value.outcome = .ok output ∧
      output.Captures name) ↔
      Java.isIdentifier name = true ∧ name ∉ config.reservedNames ∧
        ∃ base, config.typeName base = name := by
  constructor
  · rintro ⟨grammar, output, hok, hcaptures⟩
    obtain ⟨⟨hidentifiers, hunreserved, -⟩, -, rfl⟩ := outcome_eq_ok_iff.1 hok
    obtain ⟨production, hproduction, rfl⟩ := (captures_assemble ..).1 hcaptures
    exact ⟨hidentifiers production hproduction, hunreserved production hproduction, _, rfl⟩
  · rintro ⟨hidentifier, hunreserved, base, rfl⟩
    have hok := outcome_eq_ok_iff.2
      ⟨wellNamed_named hidentifier hunreserved, wellReferenced_named base, rfl⟩
    refine ⟨Grammar.named base, _, hok, ?_⟩
    exact (captures_assemble ..).2 ⟨_, List.mem_singleton_self _, rfl⟩

/-- All borrowed names can be captured under the settings that nothing was changed in. -/
example : ∀ name ∈ ({} : Config).borrowedNames,
    Java.isIdentifier name = true ∧ name ∉ ({} : Config).reservedNames := by
  decide

/-! ## What a pass keeps apart -/

/-- Which names can be claimed has nothing to do with the type parameters. -/
theorem WellNamed.withTypeParameters {config : Config} {productions : List Production}
    (h : WellNamed config productions) (retType arguType : String) :
    WellNamed { config with retType := retType, arguType := arguType } productions :=
  ⟨h.identifiers, h.unreserved, h.distinct⟩

/-- **What node types capture.** They take over no name of another unit, node types included, and no
reserved word: among the names of all units, that of a node type occurs once. Of the names that are
borrowed they capture those that a production has, prefix and suffix included, and no others; a pass
succeeds and names its node types alike whatever the type parameters are called. -/
theorem generate_captures (config : Config) (grammar : Grammar) (output : Output)
    (h : (generate config grammar).value.outcome = .ok output) :
    (∀ name, output.Captures name → (output.units.map CompilationUnit.name).count name = 1 ∧
      name ∉ config.reservedNames ∧ name ∉ Java.reservedWords) ∧
    (∀ name ∈ config.borrowedNames, output.Captures name ↔
      ∃ production ∈ grammar.productions, config.typeName production.name = name) ∧
    (∀ retType arguType, ∃ other : Output,
      (generate { config with retType := retType, arguType := arguType } grammar).value.outcome =
        .ok other ∧ ∀ name, other.Captures name ↔ output.Captures name) := by
  obtain ⟨hnamed, hreferenced, rfl⟩ := outcome_eq_ok_iff.1 h
  refine ⟨?_, ?_, ?_⟩
  · intro name hcaptures
    obtain ⟨production, hproduction, rfl⟩ := (captures_assemble ..).1 hcaptures
    have hreserved := hnamed.unreserved production hproduction
    refine ⟨?_, hreserved,
      Java.not_mem_reservedWords (hnamed.identifiers production hproduction)⟩
    have hproductions := List.mem_map_of_mem (f := fun production : Production =>
      config.typeName production.name) hproduction
    rw [(unitNames_assemble config grammar.comments grammar.productions).count_eq,
      List.count_append, hnamed.distinct.count, if_pos hproductions,
      List.count_eq_zero_of_not_mem hreserved]
  · intro name _
    exact captures_assemble ..
  · intro retType arguType
    refine ⟨_, outcome_eq_ok_iff.2 ⟨hnamed.withTypeParameters retType arguType, hreferenced, rfl⟩,
      fun name => ?_⟩
    rw [captures_assemble, captures_assemble]
    rfl

/-- Names that the prefix keeps apart from all that are borrowed. -/
theorem generate_captures_prefixed : ∃ (config : Config) (grammar : Grammar) (output : Output),
    config = { namePrefix := "Node" } ∧
    grammar = ⟨[⟨"A", ⟨0, 10⟩, .choices [[.nonTerminal ⟨4, 10⟩ "String" none]]⟩,
      ⟨"String", ⟨11, 23⟩, .choices [[.terminal ⟨20, 23⟩ "x" none]]⟩], []⟩ ∧
    (generate config grammar).value.outcome = .ok output ∧
    ∀ name ∈ config.borrowedNames, ¬ output.Captures name := by
  have hsucceeds : (generate { namePrefix := "Node" }
      ⟨[⟨"A", ⟨0, 10⟩, .choices [[.nonTerminal ⟨4, 10⟩ "String" none]]⟩,
        ⟨"String", ⟨11, 23⟩, .choices [[.terminal ⟨20, 23⟩ "x" none]]⟩], []⟩).value.outcome =
      .ok _ := outcome_of_foundProblem? (by decide)
  obtain ⟨-, hborrowed, -⟩ := generate_captures _ _ _ hsucceeds
  refine ⟨_, _, _, rfl, rfl, hsucceeds, fun name hname => ?_⟩
  rw [hborrowed name hname]
  revert name
  decide

/-- A production that is named like a type parameter: its visit takes a node of the type that the
argument has. -/
theorem captures_typeParameter : ∃ (config : Config) (grammar : Grammar) (output : Output),
    config = {} ∧
    grammar = ⟨[⟨"A", ⟨0, 7⟩, .choices [[.terminal ⟨4, 7⟩ "a" none]]⟩], []⟩ ∧
    (generate config grammar).value.outcome = .ok output ∧
    output.Captures config.arguType ∧
    Flavor.retArgu.visitSignature config "A" = "R visit(final A n, final A argu)" := by
  have hsucceeds : (generate {}
      ⟨[⟨"A", ⟨0, 7⟩, .choices [[.terminal ⟨4, 7⟩ "a" none]]⟩], []⟩).value.outcome = .ok _ :=
    outcome_of_foundProblem? (by decide)
  refine ⟨_, _, _, rfl, rfl, hsucceeds, ?_, by decide⟩
  exact (captures_assemble ..).2 ⟨_, List.mem_singleton_self _, rfl⟩

end TreeSmith

import TreeSmith.Output.Files
import TreeSmith.Proofs.Generation.Units

/-!
# TreeSmith.Proofs.Generation.UnitNames

**No two units of an output have one name, as far as a pass can see to it.** The names of node types
are told apart from each other and from the names that are reserved for other units. The reserved
names are given by the settings, which are used as they are: two units have one name if and only if
the settings give one name to two of them (`generate_unitNames`).
-/

namespace TreeSmith

/-- All units of an output, in the order in which they are written. -/
def Output.units (output : Output) : List CompilationUnit :=
  output.nodeUnits ++ output.visitors

section Assembled

variable (config : Config) (comments : List Comment) (productions : List Production)

theorem nodeTypeNames_assemble :
    (assemble config (productions.map (share config comments))).nodeTypes.map
      CompilationUnit.name = productions.map fun production => config.typeName production.name := by
  rw [nodeTypes_assemble, List.map_map, List.map_map]
  exact List.map_congr_left fun production _ => name_lower config production

/-- The units are those of the node types and one for each reserved name. -/
theorem unitNames_assemble :
    ((assemble config (productions.map (share config comments))).units.map
      CompilationUnit.name).Perm
      ((productions.map fun production => config.typeName production.name) ++
        config.reservedNames) := by
  have hinterface : (config.nodeInterface :: config.supportNames).Perm
      (config.supportNames ++ [config.nodeInterface]) :=
    (List.perm_append_singleton _ _).symm
  have hvisitors : ((assemble config (productions.map (share config comments))).visitors.map
      CompilationUnit.name) = [config.retArguVisitor, config.retVisitor, config.voidArguVisitor,
        config.voidVisitor, depthFirstName] := rfl
  have hreserved : config.reservedNames = (config.supportNames ++ [config.nodeInterface]) ++
      [config.retArguVisitor, config.retVisitor, config.voidArguVisitor, config.voidVisitor,
        depthFirstName] := rfl
  rw [Output.units, Output.nodeUnits, List.map_append, List.map_append, nodeTypeNames_assemble,
    hvisitors, hreserved, List.append_assoc]
  exact (hinterface.append_right _).append_left _

end Assembled

/-- **Only the settings can give one name to two units.** The names of node types differ from each
other and from all reserved names, and the names of all units differ if the reserved ones do. -/
theorem generate_unitNames (config : Config) (grammar : Grammar) (output : Output)
    (h : (generate config grammar).value.outcome = .ok output) :
    (output.nodeTypes.map CompilationUnit.name).Nodup ∧
    (∀ unit ∈ output.nodeTypes, unit.name ∉ config.reservedNames) ∧
    ((output.units.map CompilationUnit.name).Nodup ↔ config.reservedNames.Nodup) := by
  obtain ⟨⟨-, hunreserved, hdistinct⟩, -, rfl⟩ := outcome_eq_ok_iff.1 h
  have hnames := nodeTypeNames_assemble config grammar.comments grammar.productions
  refine ⟨by rwa [hnames], fun unit hunit => ?_, ?_⟩
  · have hname := List.mem_map_of_mem (f := CompilationUnit.name) hunit
    rw [hnames] at hname
    obtain ⟨production, hproduction, heq⟩ := List.mem_map.1 hname
    rw [← heq]
    exact hunreserved production hproduction
  · rw [(unitNames_assemble config grammar.comments grammar.productions).nodup_iff,
      List.nodup_append]
    refine ⟨fun hall => hall.2.1, fun hreserved => ⟨hdistinct, hreserved, ?_⟩⟩
    rintro name hname other hother rfl
    obtain ⟨production, hproduction, rfl⟩ := List.mem_map.1 hname
    exact hunreserved production hproduction hother

/-- Decorated names next to those of another token class and of other visitors. -/
theorem generate_unitNames_decorated : ∃ (config : Config) (grammar : Grammar) (output : Output),
    config = { namePrefix := "Node", nodeToken := "Tok", voidVisitor := "Visitor" } ∧
    grammar = ⟨[⟨"A", ⟨0, 9⟩, .choices [[.nonTerminal ⟨4, 9⟩ "Token" none]]⟩,
      ⟨"Token", ⟨10, 21⟩, .choices [[.terminal ⟨18, 21⟩ "x" none]]⟩], []⟩ ∧
    (generate config grammar).value.outcome = .ok output ∧
    (output.nodeTypes.map CompilationUnit.name) = ["NodeA", "NodeToken"] ∧
    (output.units.map CompilationUnit.name).Nodup := by
  have hsucceeds : (generate { namePrefix := "Node", nodeToken := "Tok", voidVisitor := "Visitor" }
      ⟨[⟨"A", ⟨0, 9⟩, .choices [[.nonTerminal ⟨4, 9⟩ "Token" none]]⟩,
        ⟨"Token", ⟨10, 21⟩, .choices [[.terminal ⟨18, 21⟩ "x" none]]⟩], []⟩).value.outcome =
      .ok _ := outcome_of_foundProblem? (by decide)
  obtain ⟨-, -, hunits⟩ := generate_unitNames _ _ _ hsucceeds
  exact ⟨_, _, _, rfl, rfl, hsucceeds, rfl, hunits.2 (by decide)⟩

/-- Settings that give one name to two visitors: both interfaces are generated under it. -/
theorem not_nodup_unitNames_visitors : ∃ (config : Config) (grammar : Grammar) (output : Output),
    config = { retVisitor := "IVoidVisitor" } ∧
    grammar = ⟨[⟨"A", ⟨0, 7⟩, .choices [[.terminal ⟨4, 7⟩ "a" none]]⟩], []⟩ ∧
    (generate config grammar).value.outcome = .ok output ∧
    ¬ (output.units.map CompilationUnit.name).Nodup := by
  have hsucceeds : (generate { retVisitor := "IVoidVisitor" }
      ⟨[⟨"A", ⟨0, 7⟩, .choices [[.terminal ⟨4, 7⟩ "a" none]]⟩], []⟩).value.outcome = .ok _ :=
    outcome_of_foundProblem? (by decide)
  exact ⟨_, _, _, rfl, rfl, hsucceeds, by decide⟩

end TreeSmith

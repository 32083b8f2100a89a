import Mathlib.Data.List.Nodup
import TreeSmith.NodeType.Basic

/-!
# TreeSmith.Proofs.NodeType.Fields

**The fields of a node type, one by one.** Parts are added with a counter that goes up by one, so
the field of a part is named for the place of the part in the sequence, and is otherwise a function
of the part alone (`partField`). As the places differ, so do the names (`nodup_names_lower`).
-/

namespace TreeSmith

/-- The field that holds a part, if it is field `i`. -/
def partField (config : Config) (part : Part) (i : Nat) : Field where
  type := partType config part
  name := "f" ++ toString i
  initial := (partInitial config part).filter (!·.isEmpty)
  code := part.code.filter (!·.isEmpty)

theorem fields_addParts (config : Config) (nodeType : NodeType) (i : Nat) (parts : List Part) :
    (addParts config nodeType i parts).fields =
      nodeType.fields ++ (parts.zipIdx i).map fun (part, k) => partField config part k := by
  -- The node type takes up one field at a time, and the counter goes along with it.
  induction parts generalizing nodeType i with
  | nil => exact (List.append_nil _).symm
  | cons part parts ih =>
      rw [addParts, ih, List.zipIdx_cons, List.map_cons, List.append_cons]
      rfl

/-- Of the settings, only the names of node types and of the token class show in a node type. -/
theorem addParts_congr {one two : Config} (htype : one.typeName = two.typeName)
    (htoken : one.nodeToken = two.nodeToken) (nodeType : NodeType) (i : Nat) (parts : List Part) :
    addParts one nodeType i parts = addParts two nodeType i parts := by
  induction parts generalizing nodeType i with
  | nil => rfl
  | cons part parts ih =>
      have hpart : partType one part = partType two part ∧
          partInitial one part = partInitial two part := by
        cases part <;> simp [partType, partInitial, htype, htoken]
      rw [addParts, addParts, ih, hpart.1, hpart.2]

theorem lower_congr {one two : Config} (htype : one.typeName = two.typeName)
    (htoken : one.nodeToken = two.nodeToken) : NodeType.lower one = NodeType.lower two := by
  funext production
  rw [NodeType.lower, NodeType.lower]
  simp only [addParts_congr htype htoken, NodeType.ofProduction, htype]

/-- The only field of a production with something to choose. -/
def choiceField : Field :=
  ⟨"NodeChoice", "f0", none, none⟩

/-- The fields of a node type: one for a choice, or else one for every part. -/
theorem fields_lower (config : Config) (production : Production) :
    (NodeType.lower config production).fields =
      match production.choices? with
      | none => []
      | some choices =>
        if isChoice choices then [choiceField]
        else choices.flatten.zipIdx.map fun (part, i) => partField config part i := by
  obtain ⟨name, span, body⟩ := production
  cases body with
  | code => rfl
  | choices choices =>
      rw [NodeType.lower, Production.choices?]
      dsimp only
      split
      · rfl
      · exact fields_addParts config _ 0 choices.flatten

/-- A field is the only one of a choice, or it holds one of the parts of the production. -/
theorem mem_fields_lower {config : Config} {production : Production} {field : Field}
    (h : field ∈ (NodeType.lower config production).fields) :
    field = choiceField ∨ ∃ choices part i, production.choices? = some choices ∧
      choices.flatten[i]? = some part ∧ field = partField config part i := by
  rw [fields_lower] at h
  split at h
  · exact absurd h List.not_mem_nil
  · rename_i choices hchoices
    split at h
    · exact Or.inl (List.mem_singleton.1 h)
    · obtain ⟨⟨part, i⟩, hpart, rfl⟩ := List.mem_map.1 h
      exact Or.inr ⟨choices, part, i, hchoices, List.mem_zipIdx_iff_getElem?.1 hpart, rfl⟩

/-- The fields of a node type are numbered without gaps. -/
theorem names_fields_lower (config : Config) (production : Production) :
    (NodeType.lower config production).fields.map Field.name =
      (List.range (NodeType.lower config production).fields.length).map fun i =>
        "f" ++ toString i := by
  rw [fields_lower]
  split
  · rfl
  split
  · rfl
  · rename_i choices _ _
    rw [List.map_map, List.length_map, List.length_zipIdx, List.range_eq_range',
      ← List.zipIdx_map_snd, List.map_map]
    rfl

/-- No two fields of a node type have the same name. -/
theorem nodup_names_lower (config : Config) (production : Production) :
    ((NodeType.lower config production).fields.map Field.name).Nodup := by
  rw [names_fields_lower]
  refine List.nodup_range.map fun i k hnames => ?_
  have hdigits := congrArg (fun number => Nat.ofDigitChars 10 number.toList 0)
    ((String.append_right_inj "f").1 hnames)
  simpa [Nat.toString_eq_ofList_toDigits] using hdigits

end TreeSmith

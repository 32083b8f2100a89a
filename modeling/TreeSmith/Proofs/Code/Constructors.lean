import TreeSmith.Proofs.Code.Closure

/-!
# TreeSmith.Proofs.Code.Constructors

**The constructors of a class fit its fields.** Which children a constructor takes is worked out
twice: where its parameters are declared, by leaving fields out and numbering the others, and where
the fields are assigned, by a counter that moves on with every parameter that is used up. The number
of a parameter is the same in both, namely how many fields in front of its own are taken
(`parameters_eq`, `getElem?_assignments_of_takes`), whatever fields have an initial value. So a
child ends up in the field that its parameter was declared for (`code_full`, `code_initializing`).

Fields are added to a node type one by one, and whether it needs a second constructor is decided on
the way (`needsInitializing_addFields`). Main statement: `declaration_constructors`.
-/

namespace TreeSmith

/-! ## Fields that are added -/

/-- What a field is added from. -/
structure FieldSpec where
  type : String
  name : String
  initial : Option String
  code : Option String

/-- The field that is added. An empty initial value, and empty code, is none. -/
def FieldSpec.field (spec : FieldSpec) : Field :=
  ⟨spec.type, spec.name, spec.initial.filter (!·.isEmpty), spec.code.filter (!·.isEmpty)⟩

namespace NodeType

/-- Adds fields one after the other. -/
def addFields (nodeType : NodeType) (specs : List FieldSpec) : NodeType :=
  specs.foldl (fun nodeType spec => nodeType.addField spec.type spec.name spec.initial spec.code)
    nodeType

theorem addFields_cons (nodeType : NodeType) (spec : FieldSpec) (specs : List FieldSpec) :
    nodeType.addFields (spec :: specs) =
      (nodeType.addField spec.type spec.name spec.initial spec.code).addFields specs := rfl

@[simp] theorem name_addFields (nodeType : NodeType) (specs : List FieldSpec) :
    (nodeType.addFields specs).name = nodeType.name := by
  induction specs generalizing nodeType with
  | nil => rfl
  | cons spec specs ih => exact ih _

/-- Fields are added behind those that are there. -/
theorem fields?_addFields {nodeType : NodeType} {fields : List Field}
    (h : nodeType.fields? = some fields) (specs : List FieldSpec) :
    (nodeType.addFields specs).fields? = some (fields ++ specs.map FieldSpec.field) := by
  induction specs generalizing nodeType fields with
  | nil => simpa [addFields] using h
  | cons spec specs ih =>
      have hfirst : (nodeType.addField spec.type spec.name spec.initial spec.code).fields? =
          some (fields ++ [spec.field]) := by
        simp [addField, NodeType.fields, h, FieldSpec.field]
      rw [addFields_cons, ih hfirst, List.map_cons, ← List.append_cons]

/-- A second constructor is needed as soon as one field with an initial value has been added. -/
theorem needsInitializing_addFields (nodeType : NodeType) (specs : List FieldSpec) :
    (nodeType.addFields specs).needsInitializing =
      (nodeType.needsInitializing || (specs.map FieldSpec.field).any Field.isInitialized) := by
  induction specs generalizing nodeType with
  | nil => exact (Bool.or_false _).symm
  | cons spec specs ih =>
      rw [addFields_cons, ih, List.map_cons, List.any_cons, ← Bool.or_assoc]
      rfl

end NodeType

/-- A field is initialized by what it was given, if that is not empty. -/
theorem any_isInitialized_iff {specs : List FieldSpec} :
    (specs.map FieldSpec.field).any Field.isInitialized = true ↔
      ∃ spec ∈ specs, ∃ initial, spec.initial = some initial ∧ initial ≠ "" := by
  simp [FieldSpec.field, Field.isInitialized, Option.isSome_filter, Option.any_eq_true]

/-! ## Parameters and assignments -/

namespace ConstructorKind

/-- A field without a parameter has an initial value. -/
theorem exists_initial_of_not_takes {kind : ConstructorKind} {field : Field}
    (h : kind.takes field = false) :
    kind = .initializing ∧ ∃ initial, field.initial = some initial := by
  cases kind with
  | full => cases h
  | initializing =>
      refine ⟨rfl, Option.isSome_iff_exists.1 ?_⟩
      simpa [takes, Field.isInitialized] using h

end ConstructorKind

section Numbering

variable {kind : ConstructorKind} {fields : List Field} {field : Field}

theorem assignments_cons_of_takes (h : kind.takes field = true) (n : Nat) (fields : List Field) :
    assignments kind n (field :: fields) =
      ⟨field.name, parameterName n⟩ :: assignments kind (n + 1) fields := by
  cases kind with
  | full => rfl
  | initializing =>
      have hinitial : field.initial = none := by
        simpa [ConstructorKind.takes, Field.isInitialized] using h
      simp [assignments, hinitial]

theorem assignments_cons_of_not_takes (h : kind.takes field = false) (n : Nat)
    (fields : List Field) :
    ∃ initial, field.initial = some initial ∧ assignments kind n (field :: fields) =
      ⟨field.name, initial⟩ :: assignments kind n fields := by
  obtain ⟨rfl, initial, hinitial⟩ := ConstructorKind.exists_initial_of_not_takes h
  refine ⟨initial, hinitial, ?_⟩
  rw [assignments]
  simp [hinitial]

/-- The parameters are those of the fields that are taken, numbered without gaps. -/
theorem parameters_eq (kind : ConstructorKind) (n : Nat) (fields : List Field) :
    parameters kind n fields =
      ((fields.filter kind.takes).zipIdx n).map fun (field, k) =>
        ⟨field.type, parameterName k⟩ := by
  induction fields generalizing n with
  | nil => rfl
  | cons field fields ih =>
      by_cases h : kind.takes field = true
      · rw [parameters, if_pos h, ih, List.filter_cons_of_pos h, List.zipIdx_cons, List.map_cons]
      · rw [parameters, if_neg h, ih, List.filter_cons_of_neg h]

/-- A field that is taken is numbered by how many fields in front of it are taken. -/
theorem getElem?_filter_countP {taken : Field → Bool} {i : Nat} (hfield : fields[i]? = some field)
    (htaken : taken field = true) :
    (fields.filter taken)[(fields.take i).countP taken]? = some field := by
  obtain ⟨hlt, rfl⟩ := List.getElem?_eq_some_iff.1 hfield
  have hsplit : fields = fields.take i ++ fields[i] :: fields.drop (i + 1) := by
    rw [← List.drop_eq_getElem_cons hlt, List.take_append_drop]
  have hfilter : fields.filter taken = (fields.take i).filter taken ++
      fields[i] :: (fields.drop (i + 1)).filter taken := by
    rw [← List.filter_cons_of_pos htaken, ← List.filter_append, ← hsplit]
  rw [hfilter, List.countP_eq_length_filter, List.getElem?_append_right (Nat.le_refl _),
    Nat.sub_self, List.getElem?_cons_zero]

/-- Where a field is assigned, the same number is used. -/
theorem getElem?_assignments_of_takes {i : Nat} (hfield : fields[i]? = some field)
    (htakes : kind.takes field = true) (n : Nat) :
    (assignments kind n fields)[i]? =
      some ⟨field.name, parameterName (n + (fields.take i).countP kind.takes)⟩ := by
  induction fields generalizing i n with
  | nil => simp at hfield
  | cons first fields ih =>
      cases i with
      | zero =>
          obtain rfl : first = field := by simpa using hfield
          simp [assignments_cons_of_takes htakes]
      | succ i =>
          have hrest := ih (by simpa using hfield)
          rw [List.take_succ_cons, List.countP_cons]
          by_cases hfirst : kind.takes first = true
          · simp [assignments_cons_of_takes hfirst, hrest, hfirst, Nat.add_assoc, Nat.add_comm 1]
          · obtain ⟨initial, -, hcons⟩ :=
              assignments_cons_of_not_takes (Bool.eq_false_iff.2 hfirst) n fields
            simp [hcons, hrest, hfirst]

/-- A field without a parameter is set to its initial value. -/
theorem getElem?_assignments_of_not_takes {i : Nat} (hfield : fields[i]? = some field)
    (htakes : kind.takes field = false) (n : Nat) :
    ∃ initial, field.initial = some initial ∧
      (assignments kind n fields)[i]? = some ⟨field.name, initial⟩ := by
  induction fields generalizing i n with
  | nil => simp at hfield
  | cons first fields ih =>
      cases i with
      | zero =>
          obtain rfl : first = field := by simpa using hfield
          obtain ⟨initial, hinitial, hcons⟩ := assignments_cons_of_not_takes htakes n fields
          exact ⟨initial, hinitial, by simp [hcons]⟩
      | succ i =>
          by_cases hfirst : kind.takes first = true
          · simpa [assignments_cons_of_takes hfirst] using ih (by simpa using hfield) (n + 1)
          · obtain ⟨_, -, hcons⟩ :=
              assignments_cons_of_not_takes (Bool.eq_false_iff.2 hfirst) n fields
            simpa [hcons] using ih (by simpa using hfield) n

/-- With nothing left out, every field is set to the parameter of its own number. -/
theorem assignments_full (n : Nat) (fields : List Field) :
    assignments .full n fields =
      (fields.zipIdx n).map fun (field, k) => ⟨field.name, parameterName k⟩ := by
  induction fields generalizing n with
  | nil => rfl
  | cons field fields ih =>
      rw [assignments_cons_of_takes rfl, ih, List.zipIdx_cons, List.map_cons]

end Numbering

/-! ## Constructors -/

/-- A constructor as it is laid out. Behind its documentation and its header, it sets one field
after the other; where nodes point to their parents, each child is told about its own. -/
def Constructor.layout (config : Config) (name summary : String) (tags parameters : List String)
    (assigned : List (String × String)) : Code :=
  let indent := Indent.ofLevel config.indentAmount 1
  let body := Indent.ofLevel config.indentAmount 2
  let guarded := Indent.ofLevel config.indentAmount 3
  (if config.javadocComments then
      indent.line "/**" :: indent.line (" * " ++ summary) :: indent.line " *" ::
        tags.map (fun tag => indent.line (" * " ++ tag)) ++ [indent.line " */"]
    else []) ++
    indent.line ("public " ++ name ++ "(" ++ ", ".intercalate parameters ++ ") \x7b") ::
    (assigned.flatMap fun (field, value) =>
      body.line (field ++ " = " ++ value ++ ";") ::
        if config.parentPointer then
          [body.line ("if (" ++ field ++ " != null)"), guarded.line (field ++ ".setParent(this);")]
        else []) ++
    [indent.line "\x7d", emptyLine]

section Written

variable (config : Config) (name : String) (fields : List Field)

theorem code_ofFields (kind : ConstructorKind) :
    (Constructor.ofFields config fields kind).code config name =
      Constructor.layout config name (constructorSummary config kind fields.length)
        ((List.range (parameters kind 0 fields).length).map fun n =>
          "@param " ++ parameterName n ++ " - " ++ parameterNote kind fields.length n)
        ((parameters kind 0 fields).map Parameter.render)
        ((assignments kind 0 fields).map fun assignment =>
          (assignment.field, assignment.value)) := by
  have hheader : ∀ text : String, text ++ ")" ++ " \x7b" = text ++ ") \x7b" := fun text =>
    String.append_assoc ..
  simp only [Constructor.code, Constructor.ofFields, Indent.member, Indent.opening, hheader,
    Constructor.layout, List.flatMap_map, List.append_assoc, List.cons_append]
  rfl

/-- The lines about the parameters are numbered as the parameters are. -/
theorem map_range_parameters (kind : ConstructorKind) (note : Nat → String) :
    (List.range (parameters kind 0 fields).length).map (fun n =>
        "@param " ++ parameterName n ++ " - " ++ note n) =
      (fields.filter kind.takes).zipIdx.map fun (_, n) =>
        "@param n" ++ toString n ++ " - " ++ note n := by
  have hname : ∀ n : Nat, "@param " ++ parameterName n = "@param n" ++ toString n := fun n =>
    (String.append_assoc ..).symm
  refine List.ext_getElem (by simp [parameters_eq]) fun n hn _ => ?_
  simp [hname]

theorem map_render_parameters (kind : ConstructorKind) :
    (parameters kind 0 fields).map Parameter.render =
      (fields.filter kind.takes).zipIdx.map fun (field, n) =>
        "final " ++ field.type ++ " n" ++ toString n := by
  rw [parameters_eq, List.map_map]
  refine List.map_congr_left fun (field, n) _ => ?_
  apply String.ext
  simp [Parameter.render, parameterName]

/-- With nothing left out, a field is set to the parameter of its own number. -/
theorem code_full :
    (Constructor.ofFields config fields .full).code config name =
      Constructor.layout config name
        (if fields.length = 1 then "Constructs the node with its child node."
          else "Constructs the node with all its children nodes.")
        (fields.zipIdx.map fun (_, n) => "@param n" ++ toString n ++ " - " ++
          if n = 0 then (if fields.length = 1 then "the child node" else "first child node")
          else "next child node")
        (fields.zipIdx.map fun (field, n) => "final " ++ field.type ++ " n" ++ toString n)
        (fields.zipIdx.map fun (field, n) => (field.name, "n" ++ toString n)) := by
  have hall : fields.filter ConstructorKind.full.takes = fields :=
    List.filter_eq_self.2 fun _ _ => rfl
  have hsummary : constructorSummary config .full fields.length =
      if fields.length = 1 then "Constructs the node with its child node."
        else "Constructs the node with all its children nodes." := by
    unfold constructorSummary
    grind
  have hnote : ∀ n, parameterNote .full fields.length n =
      if n = 0 then (if fields.length = 1 then "the child node" else "first child node")
        else "next child node" := by
    intro n
    unfold parameterNote
    grind
  rw [code_ofFields, map_range_parameters, map_render_parameters, hall, assignments_full,
    List.map_map, hsummary]
  simp only [hnote]
  rfl

/-- What is left out is set to its initial value; any other field is set to the parameter whose
number is how many fields in front of it are not left out. -/
theorem code_initializing :
    (Constructor.ofFields config fields .initializing).code config name =
      Constructor.layout config name
        ("Constructs the node with only its non " ++ config.nodeToken ++ " child node" ++
          if 1 < fields.length then "(s)." else ".")
        ((fields.filter (·.initial.isNone)).zipIdx.map fun (_, n) =>
          "@param n" ++ toString n ++ " - " ++
            if n = 0 then "first child node" else "next child node")
        ((fields.filter (·.initial.isNone)).zipIdx.map fun (field, n) =>
          "final " ++ field.type ++ " n" ++ toString n)
        (fields.zipIdx.map fun (field, i) => (field.name, field.initial.getD
          ("n" ++ toString ((fields.take i).countP (·.initial.isNone))))) := by
  have htakes : ConstructorKind.initializing.takes = fun field : Field => field.initial.isNone := by
    funext field
    simp [ConstructorKind.takes, Field.isInitialized]
  have hnote : ∀ n, parameterNote .initializing fields.length n =
      if n = 0 then "first child node" else "next child node" := by
    intro n
    unfold parameterNote
    grind
  have hassigned : (assignments .initializing 0 fields).map
      (fun assignment => (assignment.field, assignment.value)) =
        fields.zipIdx.map fun (field, i) => (field.name, field.initial.getD
          ("n" ++ toString ((fields.take i).countP (·.initial.isNone)))) := by
    refine List.ext_getElem? fun i => ?_
    rw [List.getElem?_map, List.getElem?_map, List.getElem?_zipIdx]
    cases hfield : fields[i]? with
    | none =>
        have hlength := congrArg List.length (field_assignments .initializing 0 fields)
        rw [List.length_map, List.length_map] at hlength
        rw [List.getElem?_eq_none (hlength ▸ List.getElem?_eq_none_iff.1 hfield)]
        rfl
    | some field =>
        cases hinitial : field.initial with
        | none =>
            have htaken : ConstructorKind.initializing.takes field = true := by
              simp [htakes, hinitial]
            rw [getElem?_assignments_of_takes hfield htaken 0]
            simp [hinitial, htakes, parameterName]
        | some initial =>
            have hleft : ConstructorKind.initializing.takes field = false := by
              simp [htakes, hinitial]
            obtain ⟨_, hvalue, hassigned⟩ := getElem?_assignments_of_not_takes hfield hleft 0
            rw [hassigned]
            simp [hvalue]
  rw [code_ofFields, map_range_parameters, map_render_parameters, htakes, hassigned]
  simp only [hnote]
  rfl

end Written

/-- If a field has an initial value, not all fields are taken. -/
theorem length_filter_initial_lt {fields : List Field}
    (h : fields.any Field.isInitialized = true) :
    (fields.filter (·.initial.isNone)).length < fields.length := by
  obtain ⟨field, hfield, hinitialized⟩ := List.any_eq_true.1 h
  have hleft : ¬ field.initial.isNone = true := by
    simpa [Field.isInitialized, Option.isSome_iff_ne_none] using hinitialized
  exact List.length_filter_lt_length_iff_exists.2 ⟨field, hfield, hleft⟩

/-! ## The class of a descriptor -/

/-- Whatever a descriptor remembers, it writes the class of its node type. -/
theorem exists_declarationCode (commentary : Commentary) (config : Config)
    (descriptor : Descriptor) (walks : Nat) :
    ∃ known, (((Ask.declaration commentary config).run descriptor).run walks).value.1.1 =
      declarationCode config descriptor.nodeType known := by
  simp only [Ask.declaration, StateT.run_bind, StateT.run_get, pure_bind]
  split
  · exact ⟨_, rfl⟩
  · exact ⟨none, rfl⟩

/-- The class of a node type with these fields, and whether it has a second constructor. -/
theorem exists_nodeClass (config : Config) {nodeType : NodeType} {fields : List Field}
    (hfields : nodeType.fields? = some fields) (known : Option Annotations) :
    ∃ nodeClass : NodeClass, declarationCode config nodeType known = nodeClass.code config ∧
      nodeClass.name = nodeType.name ∧
      nodeClass.fields.map DeclaredField.type = fields.map Field.type ∧
      nodeClass.fieldNames = fields.map Field.name ∧
      nodeClass.constructors = .ofFields config fields .full ::
        if nodeType.needsInitializing then [.ofFields config fields .initializing] else [] := by
  have hall : nodeType.fields = fields := by rw [NodeType.fields, hfields, Option.getD_some]
  refine ⟨⟨nodeType.name, declaredFields (.ofLevel config.indentAmount 1) known 0 nodeType.fields,
    constructorsOf config nodeType⟩, ?_, rfl, ?_, ?_, ?_⟩
  · rw [declarationCode, fieldDeclarations_eq, constructors_eq]
    rfl
  · rw [type_declaredFields, hall]
  · rw [NodeClass.fieldNames, name_declaredFields, hall]
  · rw [constructorsOf, hfields]

end TreeSmith

import TreeSmith.Generation.Pass
import TreeSmith.Proofs.Preorder

/-!
# TreeSmith.Proofs.Generation.Outcome

**When a pass succeeds, and what it reports when it does not.** A pass succeeds for exactly those
grammars whose node types can be named and whose references lead to productions (`WellNamed`,
`WellReferenced`). For any other grammar it fails with its first problem (`FirstProblem`), names
before references and both in the order of the text, and reports this problem and no other
(`generate_outcome`).

The names are claimed one by one in a table that grows. What is carried through this is that the
table holds the names of the productions before: a name is refused because of these, of the
reserved names, or of itself.
-/

namespace TreeSmith

/-! ## What a grammar has to fulfil -/

/-- The names of all node types are identifiers, none of them is reserved, and no two are the
same. -/
structure WellNamed (config : Config) (productions : List Production) : Prop where
  identifiers : ∀ production ∈ productions,
    Java.isIdentifier (config.typeName production.name) = true
  unreserved : ∀ production ∈ productions,
    config.typeName production.name ∉ config.reservedNames
  distinct : (productions.map fun production => config.typeName production.name).Nodup

/-- A part that refers to a production refers to one that there is. -/
def Grammar.Resolves (grammar : Grammar) : Part → Prop
  | .nonTerminal _ name _ => ∃ production ∈ grammar.productions, production.name = name
  | _ => True

/-- The parts of all productions, at every depth, refer to productions that there are. -/
def Grammar.WellReferenced (grammar : Grammar) : Prop :=
  ∀ production ∈ grammar.productions, ∀ part ∈ production.preorder, grammar.Resolves part

/-! ## What is wrong with it first -/

/-- Why a name cannot be claimed when some are reserved and some were claimed earlier. -/
inductive NameFault (reserved earlier : List String) (name : String) : GenerationError → Prop where
  | invalid (h : Java.isIdentifier name = false) :
      NameFault reserved earlier name (.invalidName name)
  | reserved (identifier : Java.isIdentifier name = true) (h : name ∈ reserved) :
      NameFault reserved earlier name (.reservedName name)
  | taken (identifier : Java.isIdentifier name = true) (unreserved : name ∉ reserved)
      (h : name ∈ earlier) : NameFault reserved earlier name (.nameCollision name)

/-- The first problem of a grammar: the first name that cannot be claimed, or if there is none,
the first reference that leads nowhere. It is found at the production, or at the part. -/
inductive FirstProblem (config : Config) (grammar : Grammar) : GenerationError → Span → Prop where
  | name {before after : List Production} {production : Production} {e : GenerationError}
      (split : grammar.productions = before ++ production :: after)
      (before_named : WellNamed config before)
      (fault : NameFault config.reservedNames
        (before.map fun earlier => config.typeName earlier.name)
        (config.typeName production.name) e) :
      FirstProblem config grammar e production.span
  | reference {before after : List Production} {production : Production}
      {earlier later : List Part} {span : Span} {name : String} {code : Option String}
      (named : WellNamed config grammar.productions)
      (split : grammar.productions = before ++ production :: after)
      (before_resolve : ∀ other ∈ before, ∀ part ∈ other.preorder, grammar.Resolves part)
      (split_parts : production.preorder = earlier ++ .nonTerminal span name code :: later)
      (earlier_resolve : ∀ part ∈ earlier, grammar.Resolves part)
      (dangling : ¬ grammar.Resolves (.nonTerminal span name code)) :
      FirstProblem config grammar (.undefinedProduction name production.name) span

/-! ## Names -/

namespace NameTable

/-- A name can be claimed if there is nothing wrong with it. -/
theorem register_eq_ok {table after : NameTable} {name : String} :
    table.register name = .ok after ↔ Java.isIdentifier name = true ∧ name ∉ table.reserved ∧
      name ∉ table.names ∧ after = { table with names := name :: table.names } := by
  unfold register contains
  by_cases hidentifier : Java.isIdentifier name = true
  · by_cases hreserved : name ∈ table.reserved
    · simp [hidentifier, hreserved]
    · by_cases htaken : name ∈ table.names
      · simp [hidentifier, hreserved, htaken]
      · simp [hidentifier, hreserved, htaken, eq_comm]
  · simp [hidentifier]

/-- Otherwise the first reason is given. -/
theorem register_eq_error {table : NameTable} {name : String} {e : GenerationError} :
    table.register name = .error e ↔ NameFault table.reserved table.names name e := by
  unfold register contains
  constructor
  · intro h
    by_cases hidentifier : Java.isIdentifier name = true
    · by_cases hreserved : name ∈ table.reserved
      · obtain rfl : GenerationError.reservedName name = e := by
          simpa [hidentifier, hreserved] using h
        exact .reserved hidentifier hreserved
      · by_cases htaken : name ∈ table.names
        · obtain rfl : GenerationError.nameCollision name = e := by
            simpa [hidentifier, hreserved, htaken] using h
          exact .taken hidentifier hreserved htaken
        · simp [hidentifier, hreserved, htaken] at h
    · obtain rfl : GenerationError.invalidName name = e := by
        simpa [hidentifier] using h
      exact .invalid (Bool.eq_false_iff.2 hidentifier)
  · rintro (hidentifier | ⟨hidentifier, hreserved⟩ | ⟨hidentifier, hreserved, htaken⟩)
    · simp [hidentifier]
    · simp [hidentifier, hreserved]
    · simp [hidentifier, hreserved, htaken]

end NameTable

/-- Only which names were claimed matters, not in which order. -/
theorem NameFault.congr {reserved earlier other : List String} {name : String}
    {e : GenerationError} (h : NameFault reserved earlier name e)
    (hsame : name ∈ earlier → name ∈ other) : NameFault reserved other name e := by
  cases h with
  | invalid h => exact .invalid h
  | reserved identifier h => exact .reserved identifier h
  | taken identifier unreserved h => exact .taken identifier unreserved (hsame h)

/-- All names can be claimed one after the other, on top of those that a table holds. -/
structure Claimable (table : NameTable) (names : List String) : Prop where
  identifiers : ∀ name ∈ names, Java.isIdentifier name = true
  unreserved : ∀ name ∈ names, name ∉ table.reserved
  untaken : ∀ name ∈ names, name ∉ table.names
  distinct : names.Nodup

theorem Claimable.cons_iff {table after : NameTable} {name : String} {names : List String}
    (h : table.register name = .ok after) :
    Claimable table (name :: names) ↔ Claimable after names := by
  obtain ⟨hidentifier, hreserved, htaken, rfl⟩ := NameTable.register_eq_ok.1 h
  constructor
  · rintro ⟨hidentifiers, hunreserved, huntaken, hdistinct⟩
    obtain ⟨hnew, hdistinct⟩ := List.nodup_cons.1 hdistinct
    refine ⟨(List.forall_mem_cons.1 hidentifiers).2, (List.forall_mem_cons.1 hunreserved).2, ?_,
      hdistinct⟩
    intro other hother hmem
    rcases List.mem_cons.1 hmem with rfl | hmem
    · exact hnew hother
    · exact (List.forall_mem_cons.1 huntaken).2 other hother hmem
  · rintro ⟨hidentifiers, hunreserved, huntaken, hdistinct⟩
    refine ⟨List.forall_mem_cons.2 ⟨hidentifier, hidentifiers⟩,
      List.forall_mem_cons.2 ⟨hreserved, hunreserved⟩,
      List.forall_mem_cons.2 ⟨htaken, fun other hother hmem =>
        huntaken other hother (List.mem_cons_of_mem _ hmem)⟩,
      List.nodup_cons.2 ⟨fun hname => huntaken name hname List.mem_cons_self, hdistinct⟩⟩

/-- No name is refused if all can be claimed. -/
theorem nameProblem?_eq_none {table : NameTable} {nodeTypes : List NodeType} :
    nameProblem? table nodeTypes = none ↔ Claimable table (nodeTypes.map NodeType.name) := by
  induction nodeTypes generalizing table with
  | nil =>
      refine ⟨fun _ => ?_, fun _ => rfl⟩
      exact ⟨List.forall_mem_nil _, List.forall_mem_nil _, List.forall_mem_nil _, List.nodup_nil⟩
  | cons nodeType rest ih =>
      rw [nameProblem?, List.map_cons]
      cases hregister : table.register nodeType.name with
      | ok after => exact ih.trans (Claimable.cons_iff hregister).symm
      | error e =>
          refine ⟨fun h => by simp at h, fun h => ?_⟩
          cases NameTable.register_eq_error.1 hregister with
          | invalid hinvalid =>
              have := h.identifiers _ List.mem_cons_self
              rw [hinvalid] at this
              cases this
          | reserved _ hreserved => exact absurd hreserved (h.unreserved _ List.mem_cons_self)
          | taken _ _ htaken => exact absurd htaken (h.untaken _ List.mem_cons_self)

/-- The name that is refused is the first one that cannot be claimed behind those before. -/
theorem nameProblem?_eq_some {table : NameTable} {nodeTypes : List NodeType}
    {e : GenerationError} {span : Span} :
    nameProblem? table nodeTypes = some (e, span) ↔ ∃ before nodeType after,
      nodeTypes = before ++ nodeType :: after ∧
      Claimable table (before.map NodeType.name) ∧
      NameFault table.reserved (before.map NodeType.name ++ table.names) nodeType.name e ∧
      nodeType.production.span = span := by
  induction nodeTypes generalizing table with
  | nil => simp [nameProblem?]
  | cons nodeType rest ih =>
      rw [nameProblem?]
      cases hregister : table.register nodeType.name with
      | ok after =>
          obtain ⟨-, -, -, hafter⟩ := NameTable.register_eq_ok.1 hregister
          refine ih.trans ⟨?_, ?_⟩
          · rintro ⟨before, found, behind, rfl, hbefore, hfault, hspan⟩
            refine ⟨nodeType :: before, found, behind, rfl,
              (Claimable.cons_iff hregister).2 hbefore, ?_, hspan⟩
            rw [hafter] at hfault
            exact hfault.congr (by grind)
          · rintro ⟨before, found, behind, hsplit, hbefore, hfault, hspan⟩
            cases before with
            | nil =>
                obtain ⟨rfl, rfl⟩ := List.cons.inj hsplit
                rw [NameTable.register_eq_error.2 hfault] at hregister
                cases hregister
            | cons first before =>
                obtain ⟨rfl, rfl⟩ := List.cons.inj hsplit
                refine ⟨before, found, behind, rfl, (Claimable.cons_iff hregister).1 hbefore, ?_,
                  hspan⟩
                rw [hafter]
                exact hfault.congr (by grind)
      | error fault =>
          have hfault := NameTable.register_eq_error.1 hregister
          constructor
          · rintro h
            obtain ⟨rfl, rfl⟩ := Prod.mk.inj (Option.some.inj h)
            exact ⟨[], nodeType, rest, rfl, nameProblem?_eq_none.1 rfl, hfault, rfl⟩
          · rintro ⟨before, found, behind, hsplit, hbefore, hother, hspan⟩
            cases before with
            | nil =>
                obtain ⟨rfl, rfl⟩ := List.cons.inj hsplit
                have hsame := (NameTable.register_eq_error.2 hother).symm.trans hregister
                obtain rfl := Except.error.inj hsame
                rw [hspan]
            | cons first before =>
                obtain ⟨rfl, rfl⟩ := List.cons.inj hsplit
                have hnone := nameProblem?_eq_none.2 hbefore
                rw [nameProblem?, hregister] at hnone
                cases hnone

/-! ## Node types -/

theorem name_addParts (config : Config) (nodeType : NodeType) (i : Nat) (parts : List Part) :
    (addParts config nodeType i parts).name = nodeType.name := by
  induction parts generalizing nodeType i with
  | nil => rfl
  | cons part parts ih =>
      rw [addParts, ih]
      rfl

theorem production_addParts (config : Config) (nodeType : NodeType) (i : Nat)
    (parts : List Part) : (addParts config nodeType i parts).production = nodeType.production := by
  induction parts generalizing nodeType i with
  | nil => rfl
  | cons part parts ih =>
      rw [addParts, ih]
      rfl

@[simp] theorem name_lower (config : Config) (production : Production) :
    (NodeType.lower config production).name = config.typeName production.name := by
  unfold NodeType.lower
  split
  · rfl
  · split
    · rfl
    · exact name_addParts ..

@[simp] theorem production_lower (config : Config) (production : Production) :
    (NodeType.lower config production).production = production := by
  unfold NodeType.lower
  split
  · rfl
  · split
    · rfl
    · exact production_addParts ..

/-- Reports aside, every production is lowered by itself. -/
theorem value_mapM_lowerLogged (config : Config) (productions : List Production) :
    (productions.mapM (NodeType.lowerLogged config)).value =
      productions.map (NodeType.lower config) := by
  induction productions with
  | nil => rfl
  | cons production rest ih =>
      have hfirst : (NodeType.lowerLogged config production).value =
          NodeType.lower config production := by
        unfold NodeType.lowerLogged
        split <;> rfl
      rw [List.mapM_cons, Logged.value_bind, hfirst, Logged.value_bind, ih]
      rfl

theorem map_name_lower (config : Config) (productions : List Production) :
    (productions.map (NodeType.lower config)).map NodeType.name =
      productions.map fun production => config.typeName production.name := by
  rw [List.map_map]
  exact List.map_congr_left fun production _ => name_lower config production

/-- On an empty table, the names of all node types can be claimed if they are well chosen. -/
theorem claimable_lower {config : Config} {productions : List Production} :
    Claimable (.empty config) ((productions.map (NodeType.lower config)).map NodeType.name) ↔
      WellNamed config productions := by
  rw [map_name_lower]
  constructor
  · rintro ⟨hidentifiers, hunreserved, -, hdistinct⟩
    exact ⟨List.forall_mem_map.1 hidentifiers, fun production hproduction =>
      hunreserved _ (List.mem_map_of_mem hproduction), hdistinct⟩
  · rintro ⟨hidentifiers, hunreserved, hdistinct⟩
    exact ⟨List.forall_mem_map.2 hidentifiers, List.forall_mem_map.2 hunreserved,
      fun _ _ => List.not_mem_nil, hdistinct⟩

/-- The name problem of a grammar is the first of its faults. -/
theorem nameProblem?_lower {config : Config} {productions : List Production}
    {e : GenerationError} {span : Span} :
    nameProblem? (.empty config) (productions.map (NodeType.lower config)) = some (e, span) ↔
      ∃ before production after, productions = before ++ production :: after ∧
        WellNamed config before ∧
        NameFault config.reservedNames (before.map fun earlier => config.typeName earlier.name)
          (config.typeName production.name) e ∧ production.span = span := by
  rw [nameProblem?_eq_some]
  constructor
  · rintro ⟨lowered, nodeType, behind, hsplit, hbefore, hfault, hspan⟩
    obtain ⟨before, others, rfl, rfl, hothers⟩ := List.map_eq_append_iff.1 hsplit
    obtain ⟨production, after, rfl, rfl, rfl⟩ := List.map_eq_cons_iff.1 hothers
    rw [claimable_lower] at hbefore
    rw [map_name_lower, name_lower] at hfault
    rw [production_lower] at hspan
    exact ⟨before, production, after, rfl, hbefore, hfault.congr (by simp [NameTable.empty]), hspan⟩
  · rintro ⟨before, production, after, rfl, hbefore, hfault, hspan⟩
    refine ⟨_, _, _, List.map_append, claimable_lower.2 hbefore, ?_, ?_⟩
    · rw [map_name_lower, name_lower]
      exact hfault.congr (List.mem_append_left _)
    · rw [production_lower]
      exact hspan

/-! ## References -/

namespace Grammar

variable {grammar : Grammar}

/-- A part that does not resolve has a reference that no production defines. -/
theorem not_resolves_iff {part : Part} : ¬ grammar.Resolves part ↔
    ∃ reference, part.reference? = some reference ∧ grammar.defines reference.name = false := by
  cases part with
  | terminal => simp [Resolves, Part.reference?]
  | nonTerminal => simp [Resolves, Part.reference?, defines]
  | composite => simp [Resolves, Part.reference?]

theorem references_eq (production : Production) :
    production.references = production.preorder.filterMap Part.reference? := by
  unfold Production.references Production.preorder Production.choices?
  cases production.body with
  | choices choices => exact choicesReferences_eq choices
  | code => rfl

theorem danglingReference?_eq_none {production : Production} :
    grammar.danglingReference? production = none ↔
      ∀ part ∈ production.preorder, grammar.Resolves part := by
  rw [danglingReference?, references_eq, List.find?_eq_none]
  constructor
  · intro h part hpart
    refine Classical.byContradiction fun hdangling => ?_
    obtain ⟨reference, hrefers, hundefined⟩ := not_resolves_iff.1 hdangling
    have hdefined := h reference (List.mem_filterMap.2 ⟨part, hpart, hrefers⟩)
    simp [hundefined] at hdefined
  · intro h reference hreference hundefined
    obtain ⟨part, hpart, hrefers⟩ := List.mem_filterMap.1 hreference
    exact not_resolves_iff.2 ⟨reference, hrefers, by simpa using hundefined⟩ (h part hpart)

/-- The first reference that leads nowhere is the one of the first part that does not resolve. -/
theorem danglingReference?_eq_some {production : Production} {name : String} {span : Span} :
    grammar.danglingReference? production = some ⟨name, span⟩ ↔ ∃ earlier code later,
      production.preorder = earlier ++ .nonTerminal span name code :: later ∧
      (∀ part ∈ earlier, grammar.Resolves part) ∧
      ¬ grammar.Resolves (.nonTerminal span name code) := by
  rw [danglingReference?, references_eq, List.find?_eq_some_iff_append]
  constructor
  · rintro ⟨hundefined, before, after, hsplit, hbefore⟩
    obtain ⟨first, rest, hparts, hfirst, hrest⟩ := List.filterMap_eq_append_iff.1 hsplit
    obtain ⟨silent, part, later, rfl, hsilent, hrefers, -⟩ := List.filterMap_eq_cons_iff.1 hrest
    have hdangling := not_resolves_iff.2 ⟨_, hrefers, by simpa using hundefined⟩
    cases part with
    | terminal => cases hrefers
    | composite => cases hrefers
    | nonTerminal _ _ code =>
        obtain ⟨rfl, rfl⟩ := Reference.mk.inj (Option.some.inj hrefers)
        refine ⟨first ++ silent, code, later, ?_, ?_, hdangling⟩
        · rw [hparts, List.append_assoc]
        · intro part hpart
          refine Classical.byContradiction fun hother => ?_
          obtain ⟨other, hrefers, hundefined⟩ := not_resolves_iff.1 hother
          rcases List.mem_append.1 hpart with hpart | hpart
          · have hmem : other ∈ before := by
              rw [← hfirst]
              exact List.mem_filterMap.2 ⟨part, hpart, hrefers⟩
            have hdefined := hbefore other hmem
            simp [hundefined] at hdefined
          · rw [hsilent part hpart] at hrefers
            cases hrefers
  · rintro ⟨earlier, code, later, hparts, hearlier, hdangling⟩
    obtain ⟨_, hrefers, hundefined⟩ := not_resolves_iff.1 hdangling
    obtain rfl := Option.some.inj hrefers
    refine ⟨by simpa using hundefined, earlier.filterMap Part.reference?,
      later.filterMap Part.reference?, ?_, ?_⟩
    · rw [hparts, List.filterMap_append, List.filterMap_cons_some hrefers]
    · intro other hother
      obtain ⟨part, hpart, hrefers⟩ := List.mem_filterMap.1 hother
      refine Classical.byContradiction fun hundefined => ?_
      exact not_resolves_iff.2 ⟨other, hrefers, by simpa using hundefined⟩ (hearlier part hpart)

theorem referenceProblem?_eq_none :
    referenceProblem? grammar = none ↔ grammar.WellReferenced := by
  rw [referenceProblem?, List.findSome?_eq_none_iff]
  exact forall₂_congr fun production _ => by
    rw [Option.map_eq_none_iff, danglingReference?_eq_none]

end Grammar

/-! ## The outcome -/

/-- The first problem that is found is the first one that there is. -/
theorem firstProblem?_eq_some {config : Config} {grammar : Grammar} {e : GenerationError}
    {span : Span} :
    firstProblem? config grammar (grammar.productions.map (NodeType.lower config)) =
      some (e, span) ↔ FirstProblem config grammar e span := by
  rw [firstProblem?, Option.or_eq_some_iff, nameProblem?_lower, nameProblem?_eq_none,
    claimable_lower]
  constructor
  · rintro (⟨before, production, after, hsplit, hbefore, hfault, rfl⟩ | ⟨hnamed, hreference⟩)
    · exact .name hsplit hbefore hfault
    · rw [referenceProblem?, List.findSome?_eq_some_iff] at hreference
      obtain ⟨before, production, after, hsplit, hfound, hbefore⟩ := hreference
      obtain ⟨reference, hdangling, hpair⟩ := Option.map_eq_some_iff.1 hfound
      obtain ⟨rfl, rfl⟩ := Prod.mk.inj hpair
      obtain ⟨earlier, code, later, hparts, hearlier, hnot⟩ :=
        Grammar.danglingReference?_eq_some.1 hdangling
      refine .reference hnamed hsplit ?_ hparts hearlier hnot
      intro other hother
      exact Grammar.danglingReference?_eq_none.1 (Option.map_eq_none_iff.1 (hbefore other hother))
  · rintro (⟨hsplit, hbefore, hfault⟩ | ⟨hnamed, hsplit, hbefore, hparts, hearlier, hnot⟩)
    · exact Or.inl ⟨_, _, _, hsplit, hbefore, hfault, rfl⟩
    · refine Or.inr ⟨hnamed, ?_⟩
      rw [referenceProblem?, List.findSome?_eq_some_iff]
      refine ⟨_, _, _, hsplit, ?_, ?_⟩
      · rw [Grammar.danglingReference?_eq_some.2 ⟨_, _, _, hparts, hearlier, hnot⟩]
        rfl
      · intro other hother
        rw [Grammar.danglingReference?_eq_none.2 (hbefore other hother)]
        rfl

theorem firstProblem?_eq_none {config : Config} {grammar : Grammar} :
    firstProblem? config grammar (grammar.productions.map (NodeType.lower config)) = none ↔
      WellNamed config grammar.productions ∧ grammar.WellReferenced := by
  rw [firstProblem?, Option.or_eq_none_iff, nameProblem?_eq_none, claimable_lower,
    Grammar.referenceProblem?_eq_none]

/-- The first problem of a grammar, as a pass looks for it. -/
def foundProblem? (config : Config) (grammar : Grammar) : Option (GenerationError × Span) :=
  firstProblem? config grammar (grammar.productions.map (NodeType.lower config))

/-- Settings with the same node types and the same reserved names find the same problem. -/
theorem foundProblem?_congr {one two : Config} (hlower : NodeType.lower one = NodeType.lower two)
    (hreserved : one.reservedNames = two.reservedNames) (grammar : Grammar) :
    foundProblem? one grammar = foundProblem? two grammar := by
  rw [foundProblem?, foundProblem?, firstProblem?, firstProblem?, NameTable.empty,
    NameTable.empty, hlower, hreserved]

/-- A pass that finds a problem fails with it, and reports it. -/
theorem value_generate_of_some {config : Config} {grammar : Grammar} {e : GenerationError}
    {span : Span} (h : foundProblem? config grammar = some (e, span)) :
    (generate config grammar).value = ⟨.error e, [⟨.error, e.message, some span⟩]⟩ := by
  rw [generate, Logged.value_bind, value_mapM_lowerLogged]
  rw [foundProblem?] at h
  rw [h]
  rfl

/-- A pass that finds no problem gives an output, and reports nothing. -/
theorem exists_output_of_none {config : Config} {grammar : Grammar}
    (h : foundProblem? config grammar = none) :
    ∃ output, (generate config grammar).value = ⟨.ok output, []⟩ := by
  rw [generate, Logged.value_bind, value_mapM_lowerLogged]
  rw [foundProblem?] at h
  rw [h]
  exact ⟨_, rfl⟩

theorem value_generate_eq_ok {config : Config} {grammar : Grammar} :
    (∃ output, (generate config grammar).value = ⟨.ok output, []⟩) ↔
      foundProblem? config grammar = none := by
  refine ⟨?_, exists_output_of_none⟩
  rintro ⟨output, houtput⟩
  cases hfound : foundProblem? config grammar with
  | none => rfl
  | some problem =>
      have hfailed := value_generate_of_some hfound
      rw [houtput] at hfailed
      cases hfailed

theorem value_generate_eq_error {config : Config} {grammar : Grammar} {e : GenerationError}
    {span : Span} :
    (generate config grammar).value = ⟨.error e, [⟨.error, e.message, some span⟩]⟩ ↔
      foundProblem? config grammar = some (e, span) := by
  refine ⟨fun hfailed => ?_, value_generate_of_some⟩
  cases hfound : foundProblem? config grammar with
  | none =>
      obtain ⟨output, houtput⟩ := exists_output_of_none hfound
      rw [houtput] at hfailed
      cases hfailed
  | some problem =>
      rw [value_generate_of_some hfound] at hfailed
      obtain ⟨houtcome, hreported⟩ := Generation.mk.inj hfailed
      obtain ⟨-, -, hplace⟩ := Diagnostic.mk.inj (List.head_eq_of_cons_eq hreported)
      rw [← Except.error.inj houtcome, ← Option.some.inj hplace]

/-- **When a pass succeeds, and what it reports when it does not**: nothing on success, otherwise
the first problem of the grammar, which is the error it fails with. -/
theorem generate_outcome (config : Config) (grammar : Grammar) :
    ((∃ output, (generate config grammar).value = ⟨.ok output, []⟩) ↔
      WellNamed config grammar.productions ∧ grammar.WellReferenced) ∧
    (∀ e span, (generate config grammar).value = ⟨.error e, [⟨.error, e.message, some span⟩]⟩ ↔
      FirstProblem config grammar e span) ∧
    ((∃ output, (generate config grammar).value = ⟨.ok output, []⟩) ∨
      ∃ e span, (generate config grammar).value =
        ⟨.error e, [⟨.error, e.message, some span⟩]⟩) := by
  refine ⟨value_generate_eq_ok.trans firstProblem?_eq_none, ?_, ?_⟩
  · intro e span
    exact value_generate_eq_error.trans firstProblem?_eq_some
  · cases hfound : foundProblem? config grammar with
    | none => exact Or.inl (exists_output_of_none hfound)
    | some problem => exact Or.inr ⟨_, _, value_generate_of_some hfound⟩

end TreeSmith

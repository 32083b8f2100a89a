import TreeSmith.Comments.Annotations
import TreeSmith.Generation.References

/-!
# TreeSmith.Proofs.Preorder

**The parts of a body at every depth**, each before the parts inside it. This is the order in which
a reader meets them. What is collected from a body part by part, be it the spans of its composite
parts or the names that it refers to, is collected from this list (`compositeSpans_eq`,
`choicesReferences_eq`), so that nothing more has to be known of how it is collected.
-/

namespace TreeSmith

mutual

/-- A part, and behind it the parts inside. -/
def Part.preorder : Part → List Part
  | .terminal span image code => [.terminal span image code]
  | .nonTerminal span name code => [.nonTerminal span name code]
  | .composite span times choices code =>
    .composite span times choices code :: choicesPreorder choices

/-- The parts of a sequence, at every depth. -/
def sequencePreorder : List Part → List Part
  | [] => []
  | part :: parts => part.preorder ++ sequencePreorder parts

/-- The parts of alternatives, at every depth. -/
def choicesPreorder : List (List Part) → List Part
  | [] => []
  | sequence :: rest => sequencePreorder sequence ++ choicesPreorder rest

end

/-- The parts of a production, at every depth; one that is code alone has none. -/
def Production.preorder (production : Production) : List Part :=
  choicesPreorder (production.choices?.getD [])

/-- A part is the first of those that are met in it. -/
theorem mem_preorder_self (part : Part) : part ∈ part.preorder := by
  cases part <;> exact List.mem_cons_self

theorem subset_sequencePreorder (sequence : Sequence) : sequence ⊆ sequencePreorder sequence := by
  induction sequence with
  | nil => exact List.Subset.refl _
  | cons part parts ih =>
      rw [sequencePreorder]
      exact List.cons_subset.2 ⟨List.mem_append_left _ (mem_preorder_self part),
        List.Subset.trans ih (List.subset_append_right _ _)⟩

/-- The parts of alternatives themselves are among those at every depth. -/
theorem flatten_subset_choicesPreorder (choices : Choices) :
    choices.flatten ⊆ choicesPreorder choices := by
  induction choices with
  | nil => exact List.Subset.refl _
  | cons sequence rest ih =>
      rw [List.flatten_cons, choicesPreorder]
      exact List.append_subset.2
        ⟨List.Subset.trans (subset_sequencePreorder sequence) (List.subset_append_left _ _),
          List.Subset.trans ih (List.subset_append_right _ _)⟩

/-! ## Composite parts -/

/-- A part and the parts inside it, as far as they are composite. -/
def Part.composites (part : Part) : List Part :=
  part.preorder.filter (!·.isAtom)

/-- The composite parts of a sequence, at every depth. -/
def sequenceComposites (sequence : Sequence) : List Part :=
  (sequencePreorder sequence).filter (!·.isAtom)

/-- The composite parts of alternatives, at every depth. -/
def compositeParts (choices : Choices) : List Part :=
  (choicesPreorder choices).filter (!·.isAtom)

/-- The composite parts inside a part. -/
def Part.inside (part : Part) : List Part :=
  compositeParts (part.nested.getD [])

@[simp] theorem sequenceComposites_nil : sequenceComposites [] = [] := rfl

@[simp] theorem sequenceComposites_cons (part : Part) (parts : Sequence) :
    sequenceComposites (part :: parts) = part.composites ++ sequenceComposites parts :=
  List.filter_append ..

@[simp] theorem compositeParts_nil : compositeParts [] = [] := rfl

@[simp] theorem compositeParts_cons (sequence : Sequence) (rest : Choices) :
    compositeParts (sequence :: rest) = sequenceComposites sequence ++ compositeParts rest :=
  List.filter_append ..

/-- A composite part stands in front of those inside it, an atom is none and has none. -/
theorem composites_eq (part : Part) :
    part.composites = (if part.isAtom then [] else [part]) ++ part.inside := by
  cases part with
  | terminal => rfl
  | nonTerminal => rfl
  | composite => rfl

theorem inside_sublist_composites (part : Part) : part.inside.Sublist part.composites := by
  rw [composites_eq]
  exact List.sublist_append_right _ _

mutual

theorem Part.compositeSpans_eq : ∀ part : Part,
    part.compositeSpans = part.composites.map Part.span
  | .terminal .. => rfl
  | .nonTerminal .. => rfl
  | .composite span times choices code => by
      rw [Part.compositeSpans, compositeSpans_eq choices]
      rfl

theorem compositeSpansOfSequence_eq : ∀ sequence : List Part,
    compositeSpansOfSequence sequence = (sequenceComposites sequence).map Part.span
  | [] => rfl
  | part :: parts => by
      rw [compositeSpansOfSequence, Part.compositeSpans_eq part, compositeSpansOfSequence_eq parts,
        sequenceComposites_cons, List.map_append]

/-- The spans of the composite parts are collected in pre-order. -/
theorem compositeSpans_eq : ∀ choices : List (List Part),
    compositeSpans choices = (compositeParts choices).map Part.span
  | [] => rfl
  | sequence :: rest => by
      rw [compositeSpans, compositeSpansOfSequence_eq sequence, compositeSpans_eq rest,
        compositeParts_cons, List.map_append]

end

/-! ## References -/

/-- The reference that a part is. -/
def Part.reference? : Part → Option Reference
  | .nonTerminal span name _ => some ⟨name, span⟩
  | _ => none

mutual

theorem Part.references_eq : ∀ part : Part,
    part.references = part.preorder.filterMap Part.reference?
  | .terminal .. => rfl
  | .nonTerminal .. => rfl
  | .composite _ _ choices _ => choicesReferences_eq choices

theorem sequenceReferences_eq : ∀ sequence : List Part,
    sequenceReferences sequence = (sequencePreorder sequence).filterMap Part.reference?
  | [] => rfl
  | part :: parts => by
      rw [sequenceReferences, Part.references_eq part, sequenceReferences_eq parts,
        sequencePreorder, List.filterMap_append]

/-- The references of alternatives are collected in pre-order. -/
theorem choicesReferences_eq : ∀ choices : List (List Part),
    choicesReferences choices = (choicesPreorder choices).filterMap Part.reference?
  | [] => rfl
  | sequence :: rest => by
      rw [choicesReferences, sequenceReferences_eq sequence, choicesReferences_eq rest,
        choicesPreorder, List.filterMap_append]

end

end TreeSmith

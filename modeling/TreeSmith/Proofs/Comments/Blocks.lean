import TreeSmith.Proofs.NodeType.Fields
import TreeSmith.Proofs.Preorder

/-!
# TreeSmith.Proofs.Comments.Blocks

**Comments are kept in the layout of the node type.** Three walks over a production have to agree:
the one that gives its node type fields, the one that lists where these fields and their sub-parts
are written, and the one that numbers the blocks of comments. They do, for every tree and whatever
its spans: there is a block for every field and for every sub-part, and every comment of the
production is in exactly one of them, in the order of the grammar (`annotate_matches_lower`).

The layout is said once more here, without a walk of its own: fields are what `fieldSources` lists,
and the sub-parts of a field are the composite parts inside it in pre-order (`subParts`).
-/

namespace TreeSmith

/-! ## Members of lists, numbered by their list -/

section Numbered

variable {α β : Type} (f : α → List β)

/-- The members of all lists, each with the number of its list; the first list is number `k`. -/
def numbered (k : Nat) : List α → List (Nat × β)
  | [] => []
  | a :: l => (f a).map (k, ·) ++ numbered (k + 1) l

theorem map_snd_numbered (k : Nat) (l : List α) :
    (numbered f k l).map Prod.snd = l.flatMap f := by
  induction l generalizing k with
  | nil => rfl
  | cons a l ih =>
      rw [numbered, List.map_append, ih, List.map_map, List.flatMap_cons]
      exact congrArg (· ++ l.flatMap f) (List.map_id _)

theorem mem_numbered {k : Nat} {l : List α} {p : Nat × β} :
    p ∈ numbered f k l ↔ ∃ i a, l[i]? = some a ∧ p.1 = k + i ∧ p.2 ∈ f a := by
  induction l generalizing k with
  | nil => simp [numbered]
  | cons a l ih =>
      rw [numbered, List.mem_append, ih, List.mem_map]
      constructor
      · rintro (⟨b, hb, rfl⟩ | ⟨i, c, hc, hi, hmem⟩)
        · exact ⟨0, a, rfl, rfl, hb⟩
        · exact ⟨i + 1, c, hc, by omega, hmem⟩
      · rintro ⟨i, c, hc, hi, hmem⟩
        cases i with
        | zero =>
            obtain rfl : a = c := Option.some.inj hc
            exact Or.inl ⟨p.2, hmem, Prod.ext hi.symm rfl⟩
        | succ i => exact Or.inr ⟨i, c, hc, by omega, hmem⟩

theorem sorted_numbered (k : Nat) (l : List α) :
    (numbered f k l).Pairwise fun p q => p.1 ≤ q.1 := by
  induction l generalizing k with
  | nil => exact List.Pairwise.nil
  | cons a l ih =>
      refine List.pairwise_append.2 ⟨?_, ih (k + 1), ?_⟩
      · exact List.pairwise_map.2 (List.pairwise_of_forall fun _ _ => Nat.le_refl k)
      · intro p hp q hq
        obtain ⟨b, -, rfl⟩ := List.mem_map.1 hp
        obtain ⟨i, c, -, hi, -⟩ := (mem_numbered f).1 hq
        simp only
        omega

/-- A member is found behind all members of the lists before its own. -/
theorem getElem?_numbered {k i j : Nat} {l : List α} {a : α} {b : β} (ha : l[i]? = some a)
    (hb : (f a)[j]? = some b) :
    (numbered f k l)[((l.take i).flatMap f).length + j]? = some (k + i, b) := by
  induction l generalizing k i with
  | nil => simp at ha
  | cons first l ih =>
      cases i with
      | zero =>
          obtain rfl : first = a := by simpa using ha
          obtain ⟨hlt, -⟩ := List.getElem?_eq_some_iff.1 hb
          rw [numbered, List.getElem?_append_left (by simpa using hlt)]
          simp [hb]
      | succ i =>
          have hrest := ih (k := k + 1) (i := i) (by simpa using ha)
          rw [numbered, List.getElem?_append_right (by simp; omega)]
          rw [List.take_succ_cons, List.flatMap_cons, List.length_append, List.length_map,
            Nat.add_assoc, Nat.add_sub_cancel_left, hrest, Nat.add_assoc, Nat.add_comm 1 i]

end Numbered

/-- Where the keys of a list rise, the parts of it by their keys make up the list again. -/
theorem flatMap_filter_key {α : Type} (key : α → Nat) {l : List α} {n : Nat}
    (hsorted : l.Pairwise fun a b => key a ≤ key b) (hlt : ∀ a ∈ l, key a < n) :
    ((List.range n).flatMap fun i => l.filter (key · == i)) = l := by
  induction n generalizing l with
  | zero =>
      cases l with
      | nil => rfl
      | cons a l => exact absurd (hlt a List.mem_cons_self) (Nat.not_lt_zero _)
  | succ n ih =>
      -- The members with the greatest key stand behind all others.
      have hsplit : l.filter (key · < n) ++ l.filter (key · == n) = l := by
        clear ih
        induction l with
        | nil => rfl
        | cons a l ih =>
            obtain ⟨hfirst, hrest⟩ := List.pairwise_cons.1 hsorted
            have ha := hlt a List.mem_cons_self
            have hl := ih hrest fun b hb => hlt b (List.mem_cons_of_mem _ hb)
            by_cases hless : key a < n
            · have hne : key a ≠ n := by omega
              simp [hless, hne, hl]
            · have heq : key a = n := by omega
              have hnone : l.filter (key · < n) = [] := by
                refine List.filter_eq_nil_iff.2 fun b hb => ?_
                have := hfirst b hb
                simp only [decide_eq_true_eq]
                omega
              rw [hnone, List.nil_append] at hl
              simp [heq, hnone, hl]
      have hlow : ∀ i ∈ List.range n,
          l.filter (key · == i) = (l.filter (key · < n)).filter (key · == i) := by
        intro i hi
        rw [List.mem_range] at hi
        rw [List.filter_filter]
        refine List.filter_congr fun a _ => ?_
        by_cases h : key a = i
        · simp [h, hi]
        · simp [h]
      have hrest := ih (hsorted.filter (key · < n)) (by simp)
      rw [List.range_succ, List.flatMap_append, List.flatMap_singleton, List.flatMap_def,
        List.map_congr_left hlow, ← List.flatMap_def, hrest, hsplit]

/-! ## The layout of a production -/

/-- What a field stands for: where it is written, and the alternatives that its sub-parts are
in. -/
structure FieldSource where
  span : Span
  inner : Choices

/-- The fields of a body: the whole body if there is something to choose, its parts otherwise. -/
def fieldSources (choices : Choices) : List FieldSource :=
  if isChoice choices then [⟨choicesSpan choices, choices⟩]
  else choices.flatten.map fun part => ⟨part.span, part.nested.getD []⟩

/-- The sub-parts of a field. -/
def FieldSource.subs (source : FieldSource) : List Part :=
  compositeParts source.inner

/-- The sub-parts of all fields, in pre-order, each with the number of its field. -/
def subParts (choices : Choices) : List (Nat × Part) :=
  numbered FieldSource.subs 0 (fieldSources choices)

/-- Inside the parts of alternatives are some of the composite parts of these. -/
theorem inside_sublist (choices : Choices) :
    (choices.flatten.flatMap Part.inside).Sublist (compositeParts choices) := by
  induction choices with
  | nil => exact List.Sublist.refl _
  | cons sequence rest ih =>
      rw [List.flatten_cons, List.flatMap_append, compositeParts_cons]
      refine List.Sublist.append ?_ ih
      clear ih
      induction sequence with
      | nil => exact List.Sublist.refl _
      | cons part parts ih =>
          rw [List.flatMap_cons, sequenceComposites_cons]
          exact (inside_sublist_composites part).append ih

/-- Field by field, the sub-parts are in the order of the whole production. -/
theorem subParts_sublist (choices : Choices) :
    ((subParts choices).map Prod.snd).Sublist (compositeParts choices) := by
  rw [subParts, map_snd_numbered, fieldSources]
  split
  · rw [List.flatMap_singleton]
    exact List.Sublist.refl _
  · rw [List.flatMap_map]
    exact inside_sublist choices

theorem fieldSlots_eq (choices : Choices) :
    fieldSlots choices =
      (fieldSources choices).map fun source => ⟨source.span, source.subs.map Part.span⟩ := by
  unfold fieldSlots fieldSources
  split
  · rw [compositeSpans_eq]
    rfl
  · rw [List.map_map]
    refine List.map_congr_left fun part _ => ?_
    rw [compositeSpans_eq]
    rfl

@[simp] theorem length_fieldSlots (choices : Choices) :
    (fieldSlots choices).length = (fieldSources choices).length := by
  rw [fieldSlots_eq, List.length_map]

theorem getElem?_fieldSlots (choices : Choices) (i : Nat) :
    (fieldSlots choices)[i]? = (fieldSources choices)[i]?.map fun source =>
      ⟨source.span, source.subs.map Part.span⟩ := by
  rw [fieldSlots_eq, List.getElem?_map]

theorem firstSub_eq (choices : Choices) (i : Nat) :
    firstSub (fieldSlots choices) i =
      (((fieldSources choices).take i).flatMap FieldSource.subs).length := by
  rw [firstSub, fieldSlots_eq, ← List.map_take, List.flatMap_map, ← List.map_flatMap,
    List.length_map]

theorem subFields_eq (choices : Choices) :
    Commentary.subFields (fieldSlots choices) = (subParts choices).map Prod.fst := by
  have hnumbers : ∀ (k : Nat) (sources : List FieldSource),
      ((sources.map fun source => (⟨source.span, source.subs.map Part.span⟩ : FieldSlot)).zipIdx
        k).flatMap (fun slot => List.replicate slot.1.subs.length slot.2) =
          (numbered FieldSource.subs k sources).map Prod.fst := by
    intro k sources
    induction sources generalizing k with
    | nil => rfl
    | cons source sources ih =>
        rw [List.map_cons, List.zipIdx_cons, List.flatMap_cons, ih, numbered, List.map_append,
          List.map_map]
        congr 1
        simp [Function.comp_def, List.map_const']
  rw [Commentary.subFields, fieldSlots_eq]
  exact hnumbers 0 _

/-- A node type has the fields of its production. -/
theorem length_fields_lower (config : Config) (name : String) (span : Span) (choices : Choices) :
    (NodeType.lower config ⟨name, span, .choices choices⟩).fields.length =
      (fieldSources choices).length := by
  rw [fields_lower, Production.choices?, fieldSources]
  dsimp only
  split
  · rfl
  · rw [List.length_map, List.length_map, List.length_zipIdx]

/-! ## Owners -/

theorem fieldIdx_lt {slots : List FieldSlot} (h : slots ≠ []) (comment : Span) :
    fieldIdx slots comment < slots.length := by
  have hpos := List.length_pos_iff.2 h
  unfold fieldIdx
  cases hfound : slots.findIdx? fun slot => comment.start < slot.span.stop with
  | none =>
      rw [Option.getD_none]
      omega
  | some i =>
      obtain ⟨hlt, -⟩ := List.findIdx?_eq_some_iff_getElem.1 hfound
      exact hlt

theorem lastIdx?_map {α β : Type} (p : β → Bool) (f : α → β) (l : List α) :
    lastIdx? p (l.map f) = lastIdx? (fun a => p (f a)) l := by
  induction l with
  | nil => rfl
  | cons a l ih => rw [List.map_cons, lastIdx?, lastIdx?, ih]

theorem lastIdx?_eq_none {α : Type} {p : α → Bool} {l : List α} (h : lastIdx? p l = none) :
    ∀ a ∈ l, p a = false := by
  fun_induction lastIdx? p l with
  | case1 => exact List.forall_mem_nil _
  | case2 => cases h
  | case3 => cases h
  | case4 a l hlast hp ih =>
      exact List.forall_mem_cons.2 ⟨by simpa using hp, ih hlast⟩

/-- At the last position the predicate holds, and it holds nowhere behind. -/
theorem lastIdx?_eq_some {α : Type} {p : α → Bool} {l : List α} {j : Nat}
    (h : lastIdx? p l = some j) : ∃ before a after, l = before ++ a :: after ∧
      before.length = j ∧ p a = true ∧ ∀ b ∈ after, p b = false := by
  fun_induction lastIdx? p l generalizing j with
  | case1 => cases h
  | case2 a l i hlast ih =>
      obtain ⟨before, b, after, rfl, hlength, hb, hafter⟩ := ih hlast
      obtain rfl := Option.some.inj h
      exact ⟨a :: before, b, after, rfl, by rw [List.length_cons, hlength], hb, hafter⟩
  | case3 a l hlast ha ih =>
      obtain rfl := Option.some.inj h
      exact ⟨[], a, l, rfl, rfl, ha, lastIdx?_eq_none hlast⟩
  | case4 => cases h

/-- The owner of a comment is the last of the sub-parts that contain it, among those of its field,
or the field itself if there is none. -/
theorem ownerOf_cases {choices : Choices} (h : fieldSources choices ≠ []) (comment : Span) :
    ∃ i source, i = fieldIdx (fieldSlots choices) comment ∧
      (fieldSources choices)[i]? = some source ∧
      ((∃ before part after k, source.subs = before ++ part :: after ∧
          part.span.contains comment = true ∧
          (∀ other ∈ after, other.span.contains comment = false) ∧
          (subParts choices)[k]? = some (i, part) ∧
          ownerOf (fieldSlots choices) comment = .sub k) ∨
        ((∀ part ∈ source.subs, part.span.contains comment = false) ∧
          ownerOf (fieldSlots choices) comment = .field i)) := by
  have hslots : fieldSlots choices ≠ [] := by
    rw [fieldSlots_eq]
    simpa using h
  have hlt := fieldIdx_lt hslots comment
  rw [length_fieldSlots] at hlt
  generalize hi : fieldIdx (fieldSlots choices) comment = i at hlt
  have hsource : (fieldSources choices)[i]? = some (fieldSources choices)[i] :=
    List.getElem?_eq_getElem hlt
  generalize (fieldSources choices)[i] = source at hsource
  refine ⟨i, source, rfl, hsource, ?_⟩
  have hlastSub : lastIdx? (·.contains comment)
      (((fieldSlots choices)[i]?.map FieldSlot.subs).getD []) =
        lastIdx? (fun part : Part => part.span.contains comment) source.subs := by
    simp [getElem?_fieldSlots, hsource, lastIdx?_map]
  cases hlast : lastIdx? (fun part : Part => part.span.contains comment) source.subs with
  | none =>
      refine Or.inr ⟨lastIdx?_eq_none hlast, ?_⟩
      simp [ownerOf, hi, hlastSub, hlast]
  | some j =>
      obtain ⟨before, part, after, hsubs, hlength, hpart, hafter⟩ := lastIdx?_eq_some hlast
      have howner : ownerOf (fieldSlots choices) comment =
          .sub (firstSub (fieldSlots choices) i + j) := by
        simp [ownerOf, hi, hlastSub, hlast]
      refine Or.inl ⟨before, part, after, _, hsubs, hpart, hafter, ?_, howner⟩
      have hj : source.subs[j]? = some part := by
        rw [hsubs, ← hlength]
        simp
      have hfound := getElem?_numbered FieldSource.subs (k := 0) hsource hj
      rw [Nat.zero_add] at hfound
      rw [firstSub_eq]
      exact hfound

/-! ## Blocks -/

/-- The block of an owner, if there is one. -/
def Annotations.block? (annotations : Annotations) : Owner → Option CommentBlock
  | .field i => annotations.fields[i]?
  | .sub k => (annotations.subs.getD [])[k]?.map SubPart.block

/-- Every comment inside `span` is in the block of its owner and in no other, and each block has
its comments in the order of the grammar. A line says what the comment says and, where this is
asked for, which block it is in and where it was written. -/
structure BlocksByOwner (commentary : Commentary) (span : Span) (owner : Comment → Owner)
    (annotations : Annotations) : Prop where
  owned : ∀ comment ∈ commentsIn commentary.comments span,
    (annotations.block? (owner comment)).isSome
  blocks : ∀ o block, annotations.block? o = some block →
    block = ((commentsIn commentary.comments span).filter (owner · = o)).map fun comment =>
      { bare := Text.trim comment.text
        debug := if commentary.config.debugComments then
          some (" // " ++ (match o with
            | .field i => "f" ++ toString i
            | .sub k => "s" ++ toString k) ++ " @" ++ comment.span.render) else none }

/-- A block holds the lines of the comments that it owns. -/
theorem blockOf_owned (commentary : Commentary) (slots : List FieldSlot) (span : Span)
    (owner : Owner) :
    Commentary.blockOf (commentary.owned slots span) owner =
      ((commentsIn commentary.comments span).filter fun comment =>
        ownerOf slots comment.span = owner).map (commentary.line owner) := by
  rw [Commentary.blockOf, Commentary.owned]
  induction commentsIn commentary.comments span with
  | nil => rfl
  | cons comment comments ih =>
      rw [List.map_cons, List.filterMap_cons, ih]
      by_cases h : ownerOf slots comment.span = owner
      · simp [h]
      · simp [h]

/-- The blocks of a production with alternatives, those of its sub-parts included. -/
def Commentary.allBlocks (commentary : Commentary) (span : Span) (choices : Choices) :
    Annotations where
  fields := (List.range (fieldSlots choices).length).map fun i =>
    blockOf (commentary.owned (fieldSlots choices) span) (.field i)
  subs := some ((subFields (fieldSlots choices)).zipIdx.map fun (i, k) =>
    ⟨i, blockOf (commentary.owned (fieldSlots choices) span) (.sub k)⟩)

/-- A production is annotated with all its blocks, or with those of its fields only. -/
theorem annotate_choices (commentary : Commentary) (name : String) (span : Span)
    (choices : Choices) :
    commentary.annotate ⟨name, span, .choices choices⟩ =
      some (if commentary.config.inlineAcceptMethods then commentary.allBlocks span choices
        else { commentary.allBlocks span choices with subs := none }) := by
  rw [Commentary.annotate, Production.choices?, Option.map_some]
  cases commentary.config.inlineAcceptMethods <;> rfl

theorem blocksByOwner_allBlocks (commentary : Commentary) (span : Span) {choices : Choices}
    (h : fieldSources choices ≠ []) :
    BlocksByOwner commentary span (fun comment => ownerOf (fieldSlots choices) comment.span)
      (commentary.allBlocks span choices) := by
  refine ⟨?_, ?_⟩
  · intro comment _
    obtain ⟨i, source, -, hsource, hcases⟩ := ownerOf_cases h comment.span
    rcases hcases with ⟨_, _, _, k, -, -, -, hk, howner⟩ | ⟨-, howner⟩
    · rw [howner]
      simp [Annotations.block?, Commentary.allBlocks, subFields_eq, hk]
    · obtain ⟨hlt, -⟩ := List.getElem?_eq_some_iff.1 hsource
      rw [howner]
      simp [Annotations.block?, Commentary.allBlocks, hlt]
  · intro o block hblock
    have hlines : block =
        Commentary.blockOf (commentary.owned (fieldSlots choices) span) o := by
      cases o with
      | field i =>
          simp only [Annotations.block?, Commentary.allBlocks, List.getElem?_map,
            Option.map_eq_some_iff] at hblock
          obtain ⟨n, hn, rfl⟩ := hblock
          obtain ⟨_, rfl⟩ := List.getElem?_eq_some_iff.1 hn
          rw [List.getElem_range]
      | sub k =>
          simp only [Annotations.block?, Commentary.allBlocks, Option.getD_some,
            List.getElem?_map, List.getElem?_zipIdx, Option.map_eq_some_iff] at hblock
          obtain ⟨_, ⟨_, ⟨_, _, rfl⟩, rfl⟩, rfl⟩ := hblock
          rw [Nat.zero_add]
    rw [hlines, blockOf_owned]
    rfl

theorem fields_allBlocks (commentary : Commentary) (span : Span) (choices : Choices) :
    (commentary.allBlocks span choices).fields.length = (fieldSources choices).length := by
  simp [Commentary.allBlocks]

theorem subs_allBlocks (commentary : Commentary) (span : Span) (choices : Choices) :
    ((commentary.allBlocks span choices).subs.getD []).map SubPart.field =
      (subParts choices).map Prod.fst := by
  rw [Commentary.allBlocks, Option.getD_some, List.map_map, ← subFields_eq]
  exact List.zipIdx_map_fst 0 _

/-- Field by field, the sub-parts come in the order of their numbers. -/
theorem subsOf_allBlocks (commentary : Commentary) (span : Span) (choices : Choices) :
    (List.range (fieldSources choices).length).flatMap
        (commentary.allBlocks span choices).subsOf =
      ((commentary.allBlocks span choices).subs.getD []).zipIdx.map Prod.swap := by
  have hfields := subs_allBlocks commentary span choices
  generalize commentary.allBlocks span choices = annotations at hfields
  generalize hlisted : (annotations.subs.getD []).zipIdx.map Prod.swap = listed
  have hkeys : listed.map (fun sub => sub.2.field) = (subParts choices).map Prod.fst := by
    rw [← hlisted, ← hfields, List.map_map]
    exact (List.map_map (l := (annotations.subs.getD []).zipIdx) (f := Prod.fst)
      (g := SubPart.field)).symm.trans (congrArg _ (List.zipIdx_map_fst 0 _))
  have hsubsOf : annotations.subsOf = fun i => listed.filter (·.2.field == i) := by
    funext i
    rw [← hlisted]
    rfl
  rw [hsubsOf]
  refine flatMap_filter_key (fun sub : Nat × SubPart => sub.2.field) ?_ ?_
  · rw [← List.pairwise_map (R := (· ≤ ·)), hkeys]
    exact List.pairwise_map.2 (sorted_numbered FieldSource.subs 0 _)
  · intro sub hsub
    have hfield : sub.2.field ∈ (subParts choices).map Prod.fst := by
      rw [← hkeys]
      exact List.mem_map_of_mem hsub
    obtain ⟨located, hlocated, hnumber⟩ := List.mem_map.1 hfield
    obtain ⟨i, source, hsource, hi, -⟩ := (mem_numbered FieldSource.subs).1 hlocated
    obtain ⟨hlt, -⟩ := List.getElem?_eq_some_iff.1 hsource
    omega

/-- **Comments are kept in the layout of the node type.** -/
theorem annotate_matches_lower (grammar : Grammar) (config : Config) (name : String)
    (span : Span) (choices : Choices) :
    ∃ annotations subs,
      Commentary.annotate ⟨grammar.comments, { config with inlineAcceptMethods := true }⟩
        ⟨name, span, .choices choices⟩ = some annotations ∧
      annotations.subs = some subs ∧
      annotations.fields.length =
        (NodeType.lower config ⟨name, span, .choices choices⟩).fields.length ∧
      subs.map SubPart.field = (subParts choices).map Prod.fst ∧
      ((subParts choices).map Prod.snd).Sublist (compositeParts choices) ∧
      (List.range annotations.fields.length).flatMap annotations.subsOf =
        subs.zipIdx.map Prod.swap ∧
      (annotations.fields ≠ [] → ∃ owner, BlocksByOwner
        ⟨grammar.comments, { config with inlineAcceptMethods := true }⟩ span owner annotations) ∧
      Commentary.annotate ⟨grammar.comments, { config with inlineAcceptMethods := false }⟩
        ⟨name, span, .choices choices⟩ = some { annotations with subs := none } := by
  have hlength := fields_allBlocks ⟨grammar.comments, { config with inlineAcceptMethods := true }⟩
    span choices
  refine ⟨_, _, annotate_choices _ name span choices, rfl, ?_, subs_allBlocks _ span choices,
    subParts_sublist choices, ?_, ?_, ?_⟩
  · rw [length_fields_lower]
    exact hlength
  · rw [if_pos rfl, hlength]
    exact subsOf_allBlocks _ span choices
  · intro hfields
    refine ⟨_, blocksByOwner_allBlocks _ span ?_⟩
    rintro hnone
    rw [hnone] at hlength
    exact hfields (List.length_eq_zero_iff.1 hlength)
  · rw [annotate_choices]
    rfl

end TreeSmith

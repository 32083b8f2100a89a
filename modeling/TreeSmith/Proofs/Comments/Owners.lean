import TreeSmith.Proofs.Comments.Blocks
import TreeSmith.Proofs.Nesting

/-!
# TreeSmith.Proofs.Comments.Owners

**Comments of a text belong to the innermost part around them.** The owner of a comment is found
without a look at the tree: by a search for the first field that ends behind the comment, and for
the last of its sub-parts that contains it. In a tree that was read from a text these two searches
find what a reader would look for (`ofText_annotate`): the part around the comment that has no
smaller part around it, or the field that the comment is in or right in front of.

What makes the last sub-part the innermost one is that the sub-parts of a field are listed in
pre-order and that their spans are well nested: what comes later is either inside or behind
(`Laminar`). Trees built by hand need not have such spans, and for them nothing of this is said.
-/

namespace TreeSmith

/-! ## What a comment belongs to -/

/-- The part is around the comment, and no composite part inside it is. -/
def Innermost (part : Part) (comment : Span) : Prop :=
  part.span.contains comment = true ∧ ∀ inner ∈ part.inside, inner.span.contains comment = false

/-- Where field `i` starts to own comments: where the field before it stops, or for the first one
at `start`. -/
def fieldStart (start : Nat) (sources : List FieldSource) : Nat → Nat
  | 0 => start
  | i + 1 => (sources[i]?.map fun source => source.span.stop).getD start

/-- A comment belongs to the innermost sub-part around it. If there is none, it belongs to the
field that ends behind its start, and that no other field before it does. -/
inductive BelongsTo (start : Nat) (choices : Choices) (comment : Span) : Owner → Prop where
  | sub {k i : Nat} {part : Part} (found : (subParts choices)[k]? = some (i, part))
      (innermost : Innermost part comment) : BelongsTo start choices comment (.sub k)
  | field {i : Nat} {source : FieldSource} (found : (fieldSources choices)[i]? = some source)
      (outside : ∀ sub ∈ subParts choices, sub.2.span.contains comment = false)
      (starts : fieldStart start (fieldSources choices) i ≤ comment.start)
      (ends : comment.start < source.span.stop) : BelongsTo start choices comment (.field i)

/-! ## Parts inside and behind -/

/-- Parts in pre-order, well nested: all that comes later than a part is inside of it or behind it,
and all that is inside comes later. -/
structure Laminar (parts : List Part) : Prop where
  inside_or_behind : parts.Pairwise fun first later =>
    later ∈ first.inside ∨ first.span.stop ≤ later.span.start
  inside_later : ∀ before part after, parts = before ++ part :: after → part.inside ⊆ after

namespace Laminar

theorem nil : Laminar [] := by
  refine ⟨List.Pairwise.nil, ?_⟩
  intro before part after h
  exact absurd h (by simp)

/-- A part stands in front of what is inside of it. -/
theorem composites {part : Part} (h : Laminar part.inside) : Laminar part.composites := by
  rw [composites_eq]
  by_cases hatom : part.isAtom = true
  · rw [if_pos hatom]
    exact h
  · rw [if_neg hatom]
    refine ⟨List.pairwise_cons.2 ⟨fun later hlater => Or.inl hlater, h.inside_or_behind⟩, ?_⟩
    intro before first after hsplit
    cases before with
    | nil =>
        obtain ⟨rfl, rfl⟩ := List.cons.inj hsplit
        exact fun _ hinner => hinner
    | cons _ before =>
        obtain ⟨-, hsplit⟩ := List.cons.inj hsplit
        exact h.inside_later before first after hsplit

theorem append {parts more : List Part} (h : Laminar parts) (hmore : Laminar more)
    (happart : ∀ first ∈ parts, ∀ later ∈ more, first.span.stop ≤ later.span.start) :
    Laminar (parts ++ more) := by
  refine ⟨List.pairwise_append.2 ⟨h.inside_or_behind, hmore.inside_or_behind, ?_⟩, ?_⟩
  · exact fun first hfirst later hlater => Or.inr (happart first hfirst later hlater)
  · intro before part after hsplit
    rcases List.append_eq_append_iff.1 hsplit with ⟨between, rfl, hright⟩ | ⟨between, hleft, hright⟩
    · exact hmore.inside_later between part after hright
    · cases between with
      | nil => exact hmore.inside_later [] part after hright.symm
      | cons first between =>
          obtain ⟨rfl, rfl⟩ := List.cons.inj hright
          intro inner hinner
          exact List.mem_append_left _ (h.inside_later before part between hleft hinner)

/-- The last part around a comment is the innermost one. -/
theorem innermost {before after : List Part} {part : Part} {comment : Span}
    (h : Laminar (before ++ part :: after)) (hpart : part.span.contains comment = true)
    (hafter : ∀ other ∈ after, other.span.contains comment = false) :
    Innermost part comment :=
  ⟨hpart, fun inner hinner => hafter inner (h.inside_later before part after rfl hinner)⟩

end Laminar

section Nested

variable {size : Nat} {lexemes : List Lexeme}

mutual

/-- What is inside a part lies within it. -/
theorem inside_within : ∀ {part : Part}, PartNested size lexemes part →
    ∀ inner ∈ part.inside, part.span.contains inner.span = true
  | .terminal .., _ => List.forall_mem_nil _
  | .nonTerminal .., _ => List.forall_mem_nil _
  | .composite .., .composite _ hbody _ (.sequences _ hspread hnested) => by
      intro inner hinner
      obtain ⟨sequence, hsequence, hwithin⟩ := compositeParts_within hnested inner hinner
      exact Span.contains_trans hbody
        (Span.contains_trans (hspread.inside _ (List.mem_map_of_mem hsequence)) hwithin)

theorem sequenceComposites_within : ∀ {parts : List Part},
    (∀ part ∈ parts, PartNested size lexemes part) →
    ∀ inner ∈ sequenceComposites parts, ∃ part ∈ parts, part.span.contains inner.span = true
  | [], _ => List.forall_mem_nil _
  | part :: parts, h => by
      obtain ⟨hpart, hparts⟩ := List.forall_mem_cons.1 h
      have hinside := inside_within hpart
      have hrest := sequenceComposites_within hparts
      rw [sequenceComposites_cons, composites_eq]
      intro inner hinner
      rcases List.mem_append.1 hinner with hinner | hinner
      · refine ⟨part, List.mem_cons_self, ?_⟩
        rcases List.mem_append.1 hinner with hself | hinner
        · split at hself
          · exact absurd hself List.not_mem_nil
          · rw [List.mem_singleton.1 hself]
            exact Span.contains_self _
        · exact hinside inner hinner
      · obtain ⟨other, hother, hwithin⟩ := hrest inner hinner
        exact ⟨other, List.mem_cons_of_mem _ hother, hwithin⟩

theorem compositeParts_within : ∀ {choices : List (List Part)},
    (∀ sequence ∈ choices, SequenceNested size lexemes sequence) →
    ∀ inner ∈ compositeParts choices,
      ∃ sequence ∈ choices, (sequenceSpan sequence).contains inner.span = true
  | [], _ => List.forall_mem_nil _
  | sequence :: rest, h => by
      obtain ⟨⟨-, hspread, hparts⟩, hrest⟩ := List.forall_mem_cons.1 h
      have hsequence := sequenceComposites_within hparts
      have hothers := compositeParts_within hrest
      rw [compositeParts_cons]
      intro inner hinner
      rcases List.mem_append.1 hinner with hinner | hinner
      · obtain ⟨part, hpart, hwithin⟩ := hsequence inner hinner
        exact ⟨sequence, List.mem_cons_self,
          Span.contains_trans (hspread.inside _ (List.mem_map_of_mem hpart)) hwithin⟩
      · obtain ⟨other, hother, hwithin⟩ := hothers inner hinner
        exact ⟨other, List.mem_cons_of_mem _ hother, hwithin⟩

end

/-- The composite parts of a part lie within it. -/
theorem composites_within {part : Part} (h : PartNested size lexemes part) :
    ∀ inner ∈ part.composites, part.span.contains inner.span = true := by
  have hsequence : ∀ other ∈ [part], PartNested size lexemes other :=
    List.forall_mem_singleton.2 h
  intro inner hinner
  obtain ⟨other, hother, hwithin⟩ :=
    sequenceComposites_within hsequence inner (by simpa using hinner)
  rwa [List.mem_singleton.1 hother] at hwithin

mutual

theorem laminar_inside : ∀ {part : Part}, PartNested size lexemes part → Laminar part.inside
  | .terminal .., _ => .nil
  | .nonTerminal .., _ => .nil
  | .composite .., .composite _ _ _ (.sequences _ hspread hnested) =>
      laminar_compositeParts hspread.apart hnested

theorem laminar_sequenceComposites : ∀ {parts : List Part},
    ((parts.map Part.span).Pairwise fun a b => a.stop ≤ b.start) →
    (∀ part ∈ parts, PartNested size lexemes part) → Laminar (sequenceComposites parts)
  | [], _, _ => .nil
  | part :: parts, hapart, h => by
      obtain ⟨hfirst, hapart⟩ := List.pairwise_cons.1 hapart
      obtain ⟨hpart, hparts⟩ := List.forall_mem_cons.1 h
      have hcomposites := (laminar_inside hpart).composites
      have hrest := laminar_sequenceComposites hapart hparts
      rw [sequenceComposites_cons]
      refine hcomposites.append hrest ?_
      intro first hmem later hlater
      obtain ⟨other, hother, hwithin⟩ := sequenceComposites_within hparts later hlater
      have hbefore := hfirst other.span (List.mem_map_of_mem hother)
      have hpartWithin := composites_within hpart first hmem
      rw [Span.contains_iff] at hwithin hpartWithin
      omega

theorem laminar_compositeParts : ∀ {choices : List (List Part)},
    ((choices.map sequenceSpan).Pairwise fun a b => a.stop ≤ b.start) →
    (∀ sequence ∈ choices, SequenceNested size lexemes sequence) →
    Laminar (compositeParts choices)
  | [], _, _ => .nil
  | sequence :: rest, hapart, h => by
      obtain ⟨hfirst, hapart⟩ := List.pairwise_cons.1 hapart
      obtain ⟨hsequence, hrest⟩ := List.forall_mem_cons.1 h
      obtain ⟨-, hspread, hparts⟩ := hsequence
      have hcomposites := laminar_sequenceComposites hspread.apart hparts
      have hothers := laminar_compositeParts hapart hrest
      rw [compositeParts_cons]
      refine hcomposites.append hothers ?_
      intro first hmem later hlater
      obtain ⟨part, hpart, hpartWithin⟩ := sequenceComposites_within hparts first hmem
      obtain ⟨other, hother, hwithin⟩ := compositeParts_within hrest later hlater
      have hsequenceWithin := hspread.inside _ (List.mem_map_of_mem hpart)
      have hbefore := hfirst _ (List.mem_map_of_mem hother)
      rw [Span.contains_iff] at hwithin hpartWithin hsequenceWithin
      omega

end

/-! ## Fields one after the other -/

/-- Fields as a text has them: one after the other, each around its sub-parts. -/
structure FieldsNested (sources : List FieldSource) : Prop where
  nonempty : ∀ source ∈ sources, source.span.start < source.span.stop
  apart : sources.Pairwise fun a b => a.span.stop ≤ b.span.start
  within : ∀ source ∈ sources, ∀ sub ∈ source.subs, source.span.contains sub.span = true
  laminar : ∀ source ∈ sources, Laminar source.subs

/-- The only alternative of a body that is no choice. -/
theorem exists_sequence {choices : Choices} (h : ChoicesNested size lexemes choices)
    (honly : isChoice choices = false) :
    ∃ sequence, choices = [sequence] ∧ SequenceNested size lexemes sequence := by
  obtain ⟨hproper, -, hnested⟩ := h
  match choices with
  | [] => exact absurd hproper.nonempty (Nat.lt_irrefl 0)
  | [sequence] => exact ⟨sequence, rfl, hnested sequence List.mem_cons_self⟩
  | _ :: _ :: _ => cases honly

theorem fieldsNested {choices : Choices} (h : ChoicesNested size lexemes choices) :
    FieldsNested (fieldSources choices) := by
  cases hchoice : isChoice choices with
  | true =>
      obtain ⟨hproper, hspread, hnested⟩ := h
      rw [fieldSources, if_pos hchoice]
      refine ⟨?_, List.pairwise_singleton _ _, ?_, ?_⟩
      all_goals refine List.forall_mem_singleton.2 ?_
      · exact hproper.nonempty
      · intro sub hsub
        obtain ⟨sequence, hsequence, hwithin⟩ := compositeParts_within hnested sub hsub
        exact Span.contains_trans (hspread.inside _ (List.mem_map_of_mem hsequence)) hwithin
      · exact laminar_compositeParts hspread.apart hnested
  | false =>
      obtain ⟨sequence, rfl, -, hspread, hparts⟩ := exists_sequence h hchoice
      rw [fieldSources, if_neg (by simp [hchoice]), List.flatten_singleton]
      refine ⟨?_, ?_, ?_, ?_⟩
      · intro source hsource
        obtain ⟨part, hpart, rfl⟩ := List.mem_map.1 hsource
        exact (hparts part hpart).proper.nonempty
      · exact List.pairwise_map.2 (List.pairwise_map.1 hspread.apart)
      · intro source hsource
        obtain ⟨part, hpart, rfl⟩ := List.mem_map.1 hsource
        exact inside_within (hparts part hpart)
      · intro source hsource
        obtain ⟨part, hpart, rfl⟩ := List.mem_map.1 hsource
        exact laminar_inside (hparts part hpart)

/-- Some field reaches to the end of the body. -/
theorem exists_last_field {choices : Choices} (h : ChoicesNested size lexemes choices) :
    ∃ source ∈ fieldSources choices, (choicesSpan choices).stop ≤ source.span.stop := by
  cases hchoice : isChoice choices with
  | true =>
      rw [fieldSources, if_pos hchoice]
      exact ⟨_, List.mem_singleton_self _, Nat.le_refl _⟩
  | false =>
      obtain ⟨sequence, rfl, hproper, -, -⟩ := exists_sequence h hchoice
      rw [fieldSources, if_neg (by simp [hchoice]), List.flatten_singleton]
      generalize hfields : sequence.map
        (fun part => (⟨part.span, part.nested.getD []⟩ : FieldSource)) = fields
      -- To stop no later than some field does is inherited by covers, whichever stops later.
      have hclosed : CoverClosed fun span => ∃ source ∈ fields, span.stop ≤ source.span.stop := by
        rintro a b ⟨source, hsource, ha⟩ ⟨other, hother, hb⟩
        rcases Nat.le_total a.stop b.stop with hle | hle
        · exact ⟨other, hother, Nat.max_le.2 ⟨Nat.le_trans hle hb, hb⟩⟩
        · exact ⟨source, hsource, Nat.max_le.2 ⟨ha, Nat.le_trans hle ha⟩⟩
      have hsome : sequence.map Part.span ≠ [] := by
        rintro hnone
        rw [sequenceSpan, hnone] at hproper
        exact absurd hproper.nonempty (Nat.lt_irrefl 0)
      have hparts : ∀ span ∈ sequence.map Part.span,
          ∃ source ∈ fields, span.stop ≤ source.span.stop := by
        intro span hspan
        obtain ⟨part, hpart, rfl⟩ := List.mem_map.1 hspan
        rw [← hfields]
        exact ⟨_, List.mem_map_of_mem hpart, Nat.le_refl _⟩
      have hcovered := hclosed.coverAll hsome hparts
      exact hcovered

end Nested

/-! ## The field of a comment -/

/-- The field of a comment is the first one that ends behind its start, if there is such a
field. -/
theorem fieldIdx_first {choices : Choices} {comment : Span}
    (h : ∃ source ∈ fieldSources choices, comment.start < source.span.stop) :
    ∃ source, (fieldSources choices)[fieldIdx (fieldSlots choices) comment]? = some source ∧
      comment.start < source.span.stop ∧
      ∀ (j : Nat) (other : FieldSource), j < fieldIdx (fieldSlots choices) comment →
        (fieldSources choices)[j]? = some other → other.span.stop ≤ comment.start := by
  rw [fieldIdx, fieldSlots_eq, List.findIdx?_map]
  cases hfound : (fieldSources choices).findIdx?
      ((fun slot : FieldSlot => decide (comment.start < slot.span.stop)) ∘
        fun source => ⟨source.span, source.subs.map Part.span⟩) with
  | none =>
      obtain ⟨source, hsource, hends⟩ := h
      have hnot := List.findIdx?_eq_none_iff.1 hfound source hsource
      simp [hends] at hnot
  | some i =>
      obtain ⟨hlt, hends, hbefore⟩ := List.findIdx?_eq_some_iff_getElem.1 hfound
      refine ⟨(fieldSources choices)[i], List.getElem?_eq_getElem hlt, by simpa using hends, ?_⟩
      intro j other hj hother
      obtain ⟨hjlt, rfl⟩ := List.getElem?_eq_some_iff.1 hother
      simpa using hbefore j hj

/-- Where all fields before one stop in front of a comment, that one has started to own comments. -/
theorem fieldStart_le {sources : List FieldSource} {source : FieldSource} {start n i : Nat}
    (hstart : start ≤ n) (hsource : sources[i]? = some source)
    (hbefore : ∀ (j : Nat) (other : FieldSource), j < i → sources[j]? = some other →
      other.span.stop ≤ n) : fieldStart start sources i ≤ n := by
  cases i with
  | zero => exact hstart
  | succ i =>
      obtain ⟨hlt, -⟩ := List.getElem?_eq_some_iff.1 hsource
      have hprevious : sources[i]? = some sources[i] := List.getElem?_eq_getElem (by omega)
      rw [fieldStart, hprevious, Option.map_some, Option.getD_some]
      exact hbefore i _ (Nat.lt_succ_self i) hprevious

namespace FieldsNested

variable {sources : List FieldSource} (h : FieldsNested sources)

include h

/-- An earlier field stops before a later one starts. -/
theorem stop_le_start {i j : Nat} {first later : FieldSource} (hij : i < j)
    (hfirst : sources[i]? = some first) (hlater : sources[j]? = some later) :
    first.span.stop ≤ later.span.start := by
  obtain ⟨hi, rfl⟩ := List.getElem?_eq_some_iff.1 hfirst
  obtain ⟨hj, rfl⟩ := List.getElem?_eq_some_iff.1 hlater
  exact List.pairwise_iff_getElem.1 h.apart i j hi hj hij

/-- No field stops behind the point where a later field starts to own comments. -/
theorem stop_le_fieldStart (start : Nat) {i j : Nat} {first later : FieldSource} (hij : i < j)
    (hfirst : sources[i]? = some first) (hlater : sources[j]? = some later) :
    first.span.stop ≤ fieldStart start sources j := by
  cases j with
  | zero => exact absurd hij (Nat.not_lt_zero i)
  | succ j =>
      obtain ⟨hlt, -⟩ := List.getElem?_eq_some_iff.1 hlater
      have hbefore : sources[j]? = some sources[j] := List.getElem?_eq_getElem (by omega)
      rw [fieldStart, hbefore, Option.map_some, Option.getD_some]
      rcases Nat.lt_or_eq_of_le (Nat.le_of_lt_succ hij) with hij | rfl
      · have hapart := h.stop_le_start hij hfirst hbefore
        have hnonempty := h.nonempty _ (List.getElem_mem (by omega : j < sources.length))
        omega
      · obtain rfl := Option.some.inj (hfirst.symm.trans hbefore)
        exact Nat.le_refl _

end FieldsNested

/-- The sub-parts of all fields are well nested too. -/
theorem pairwise_subParts {choices : Choices} (h : FieldsNested (fieldSources choices)) :
    (subParts choices).Pairwise fun first later =>
      later.2 ∈ first.2.inside ∨ first.2.span.stop ≤ later.2.span.start := by
  have hmap : ((subParts choices).map Prod.snd).Pairwise fun first later =>
      later ∈ first.inside ∨ first.span.stop ≤ later.span.start := by
    rw [subParts, map_snd_numbered]
    refine List.pairwise_flatMap.2 ⟨?_, (List.Pairwise.and_mem.1 h.apart).imp ?_⟩
    · intro source hsource
      exact (h.laminar source hsource).inside_or_behind
    · rintro source other ⟨hsource, hother, hapart⟩ first hfirst later hlater
      have hfirstWithin := h.within source hsource first hfirst
      have hlaterWithin := h.within other hother later hlater
      rw [Span.contains_iff] at hfirstWithin hlaterWithin
      exact Or.inr (by omega)
  exact List.pairwise_map.1 hmap

/-! ## The owner of a comment -/

section Owner

variable {choices : Choices} {comment : Span} {start : Nat}
  (hfields : FieldsNested (fieldSources choices)) (hcomment : comment.start < comment.stop)

include hfields hcomment

/-- Two sub-parts are not both the innermost one. -/
theorem innermost_unique {k l : Nat} {first later : Nat × Part} (hkl : k < l)
    (hk : (subParts choices)[k]? = some first) (hl : (subParts choices)[l]? = some later)
    (hfirst : Innermost first.2 comment) : later.2.span.contains comment = false := by
  obtain ⟨hklt, rfl⟩ := List.getElem?_eq_some_iff.1 hk
  obtain ⟨hllt, rfl⟩ := List.getElem?_eq_some_iff.1 hl
  rcases List.pairwise_iff_getElem.1 (pairwise_subParts hfields) k l hklt hllt hkl with
    hinside | hbehind
  · exact hfirst.2 _ hinside
  · have hcontains := Span.contains_iff.1 hfirst.1
    refine Bool.eq_false_iff.2 fun hlater => ?_
    rw [Span.contains_iff] at hlater
    omega

/-- A comment belongs to one owner only. -/
theorem belongsTo_unique {owner other : Owner} (h : BelongsTo start choices comment owner)
    (hother : BelongsTo start choices comment other) : other = owner := by
  cases h with
  | @sub k i part found innermost =>
      cases hother with
      | @sub l j later found' innermost' =>
          rcases Nat.lt_trichotomy k l with hkl | rfl | hkl
          · have := innermost_unique hfields hcomment hkl found found' innermost
            rw [innermost'.1] at this
            cases this
          · rfl
          · have := innermost_unique hfields hcomment hkl found' found innermost'
            rw [innermost.1] at this
            cases this
      | field _ outside _ _ =>
          have := outside _ (List.mem_of_getElem? found)
          rw [innermost.1] at this
          cases this
  | @field i source found outside starts ends =>
      cases hother with
      | sub found' innermost =>
          have := outside _ (List.mem_of_getElem? found')
          rw [innermost.1] at this
          cases this
      | @field j later found' _ starts' ends' =>
          rcases Nat.lt_trichotomy i j with hij | rfl | hij
          · have := hfields.stop_le_fieldStart start hij found found'
            omega
          · rfl
          · have := hfields.stop_le_fieldStart start hij found' found
            omega

/-- A sub-part around the comment is in a field around it, and this is the first one that ends
behind its start. -/
theorem field_eq_of_contains {i j : Nat} {found other : FieldSource} {sub : Part}
    (hfound : (fieldSources choices)[i]? = some found) (hends : comment.start < found.span.stop)
    (hbefore : ∀ (j : Nat) (other : FieldSource), j < i →
      (fieldSources choices)[j]? = some other → other.span.stop ≤ comment.start)
    (hother : (fieldSources choices)[j]? = some other) (hsub : sub ∈ other.subs)
    (hcontains : sub.span.contains comment = true) : i = j := by
  have hfield := hfields.within other (List.mem_of_getElem? hother) sub hsub
  have hwithin := Span.contains_iff.1 (Span.contains_trans hfield hcontains)
  rcases Nat.lt_trichotomy i j with hij | hij | hij
  · have := hfields.stop_le_start hij hfound hother
    omega
  · exact hij
  · have := hbefore j other hij hother
    omega

/-- **The owner that is found for a comment is the one that it belongs to.** -/
theorem belongsTo_ownerOf (hstart : start ≤ comment.start)
    (hlast : ∃ source ∈ fieldSources choices, comment.start < source.span.stop) :
    BelongsTo start choices comment (ownerOf (fieldSlots choices) comment) := by
  obtain ⟨found, hfound, hends, hbefore⟩ := fieldIdx_first hlast
  have hstarts := fieldStart_le hstart hfound hbefore
  have hsources : fieldSources choices ≠ [] := by
    intro hnone
    rw [hnone] at hfound
    cases hfound
  obtain ⟨i, source, rfl, hsource, howner⟩ := ownerOf_cases hsources comment
  obtain rfl := Option.some.inj (hfound.symm.trans hsource)
  rcases howner with ⟨before, part, after, k, hsubs, hpart, hafter, hk, howner⟩ | ⟨houtside, howner⟩
  · have hlaminar := hfields.laminar found (List.mem_of_getElem? hfound)
    rw [hsubs] at hlaminar
    rw [howner]
    exact .sub hk (hlaminar.innermost hpart hafter)
  · rw [howner]
    refine .field hfound ?_ hstarts hends
    intro sub hsub
    obtain ⟨j, other, hother, -, hmem⟩ := (mem_numbered FieldSource.subs).1 hsub
    refine Bool.eq_false_iff.2 fun hcontains => ?_
    have hsame := field_eq_of_contains hfields hcomment hfound hends hbefore hother hmem hcontains
    rw [← hsame, hfound] at hother
    obtain rfl := Option.some.inj hother
    rw [houtside sub.2 hmem] at hcontains
    cases hcontains

end Owner

/-! ## Productions -/

/-- A production stops where its body does: its name is in front. -/
theorem place_stop_le_body {all : List Lexeme} {production : WrittenProduction}
    (h : Situated all [] production.lexemes) :
    production.place.span.stop ≤ (choicesSpan (production.choices.place [])).stop := by
  obtain ⟨-, hbehind, horder⟩ := InOrder.cons_iff.1 h.inOrder
  have hname : production.nameSpan.stop ≤ (choicesSpan (production.choices.place [])).stop := by
    have hclosed := CoverClosed.le_to production.nameSpan.stop
    refine (placeChoices_covers hclosed production.choices [] (List.forall_mem_nil _)
      ?_).choicesSpan hclosed
    intro lexeme hlexeme
    have hmem : lexeme.span ∈ (Glyph.eq.lexeme production.eqSpan ::
        production.choices.lexemes).map Lexeme.span :=
      List.mem_map_of_mem
        (List.mem_cons_of_mem _ (taken_subset_choices production.choices hlexeme))
    have hafter : production.nameSpan.stop ≤ lexeme.span.start := hbehind _ hmem
    have hnonempty := horder.nonempty _ hmem
    omega
  exact Nat.max_le.2 ⟨hname, Nat.le_refl _⟩

/-- No comment is inside two spans one after the other. -/
theorem not_mem_commentsIn {comments : List Comment} {first later : Span}
    (hnonempty : ∀ comment ∈ comments, comment.span.start < comment.span.stop)
    (hapart : first.stop ≤ later.start) :
    ∀ comment ∈ commentsIn comments first, comment ∉ commentsIn comments later := by
  intro comment hfirst hlater
  obtain ⟨hmem, hfirst⟩ := mem_commentsIn.1 hfirst
  obtain ⟨-, hlater⟩ := mem_commentsIn.1 hlater
  have := hnonempty comment hmem
  rw [Span.contains_iff] at hfirst hlater
  omega

/-- The production has a block for each field and for each sub-part, and each comment inside it is
in the block of the one owner that it belongs to. -/
def OwnedInnermost (commentary : Commentary) (production : Production) : Prop :=
  ∃ choices annotations owner, production.body = .choices choices ∧
    commentary.annotate production = some annotations ∧
    annotations.fields.length = (fieldSources choices).length ∧
    (annotations.subs.getD []).map SubPart.field = (subParts choices).map Prod.fst ∧
    BlocksByOwner commentary production.span owner annotations ∧
    ∀ comment ∈ commentsIn commentary.comments production.span,
      BelongsTo production.span.start choices comment.span (owner comment) ∧
      ∀ other, BelongsTo production.span.start choices comment.span other → other = owner comment

/-- **Comments of a text belong to the innermost part around them**, or else to the field that they
are in or in front of, and they are in the block of that owner. No comment is inside two
productions. -/
theorem ofText_annotate {text : String} {grammar : Grammar} {config : Config}
    (h : Grammar.ofText text = .ok grammar) (hinline : config.inlineAcceptMethods = true) :
    (∀ production ∈ grammar.productions, OwnedInnermost ⟨grammar.comments, config⟩ production) ∧
    grammar.productions.Pairwise fun first later =>
      ∀ comment ∈ commentsIn grammar.comments first.span,
        comment ∉ commentsIn grammar.comments later.span := by
  obtain ⟨definitions, lexemes, productions, hwritten, rfl⟩ := exists_written_of_ofText h
  have hnonempty := nonempty_of_tokenize hwritten.tokenize
  refine ⟨?_, (List.pairwise_map.1 hwritten.apart).imp fun hapart =>
    not_mem_commentsIn hnonempty hapart⟩
  intro production hproduction
  obtain ⟨written, hmem, rfl⟩ := List.mem_map.1 hproduction
  have hsituated := hwritten.situated hmem
  have hstop := place_stop_le_body hsituated
  obtain ⟨-, choices, hbody, -, hchoices⟩ := nested_production hwritten.proper hsituated
  obtain rfl := Body.choices.inj hbody
  have hfields := fieldsNested hchoices
  obtain ⟨last, hlast, hreach⟩ := exists_last_field hchoices
  have hannotate := annotate_choices ⟨lexemes.comments, config⟩ written.name written.place.span
    (written.choices.place [])
  rw [if_pos hinline] at hannotate
  refine ⟨_, _, _, rfl, hannotate, fields_allBlocks _ _ _, subs_allBlocks _ _ _,
    blocksByOwner_allBlocks _ _ (List.ne_nil_of_mem hlast), ?_⟩
  intro comment hcomment
  obtain ⟨hcomment, hwithin⟩ := mem_commentsIn.1 hcomment
  have hsize := hnonempty comment hcomment
  rw [Span.contains_iff] at hwithin
  have hbelongs := belongsTo_ownerOf hfields hsize hwithin.1 ⟨last, hlast, by omega⟩
  exact ⟨hbelongs, fun other hother => belongsTo_unique hfields hsize hbelongs hother⟩

/-- A comment between the parts of a sequence, and one inside a group. -/
theorem ofText_annotate_group : ∃ grammar,
    Grammar.ofText "A = A // one\n ('b' // two\n | A)" = .ok grammar ∧
    grammar.comments.length = 2 ∧
    (∀ production ∈ grammar.productions,
      OwnedInnermost ⟨grammar.comments, { inlineAcceptMethods := true }⟩ production) ∧
    grammar.productions.Pairwise fun first later =>
      ∀ comment ∈ commentsIn grammar.comments first.span,
        comment ∉ commentsIn grammar.comments later.span := by
  have hread : Grammar.ofText "A = A // one\n ('b' // two\n | A)" = .ok ⟨[⟨"A", ⟨0, 31⟩, .choices
      [[.nonTerminal ⟨4, 5⟩ "A" none,
        .composite ⟨14, 31⟩ .once [[.terminal ⟨15, 18⟩ "b" none],
          [.nonTerminal ⟨29, 30⟩ "A" none]] none]]⟩],
      [⟨⟨6, 12⟩, " one"⟩, ⟨⟨19, 25⟩, " two"⟩]⟩ := by cbv
  have hinline : ({ inlineAcceptMethods := true } : Config).inlineAcceptMethods = true := rfl
  obtain ⟨hproductions, hapart⟩ := ofText_annotate hread hinline
  exact ⟨_, hread, rfl, hproductions, hapart⟩

end TreeSmith

import TreeSmith.Grammar.Outline
import TreeSmith.Rule.Token

/-!
# TreeSmith.Proofs.Rule.Folded

**Rules as a reader folds them.** A sequence and an alternation that are read have at least two
members, for one member would have been folded away; and a rule is made of nothing but the tokens
that it was read from. `Rule.FoldedOver` says both.

For outlines the first half is what matters: a group is never around a single part
(`Outline.Folded`). Parentheses around a single part are redundant and leave no group.
-/

namespace TreeSmith

mutual

/-- A rule whose sequences and alternations have at least two members, and whose names, images
and labels are `allowed`. A label is known by its colon. -/
def Rule.FoldedOver (allowed : Glyph → Prop) : Rule → Prop
  | .node name => allowed (.ident name)
  | .token image => allowed (.literal image)
  | .labeled _ rule => allowed .colon ∧ rule.FoldedOver allowed
  | .opt rule => rule.FoldedOver allowed
  | .rep rule => rule.FoldedOver allowed
  | .seq rules => 2 ≤ rules.length ∧ AllFoldedOver allowed rules
  | .alt rules => 2 ≤ rules.length ∧ AllFoldedOver allowed rules

/-- Every rule of the list is folded. -/
def AllFoldedOver (allowed : Glyph → Prop) : List Rule → Prop
  | [] => True
  | rule :: rules => rule.FoldedOver allowed ∧ AllFoldedOver allowed rules

end

mutual

/-- A rule stays folded when more is allowed. -/
theorem Rule.FoldedOver.mono {allowed more : Glyph → Prop} (himp : ∀ g, allowed g → more g) :
    ∀ {rule : Rule}, rule.FoldedOver allowed → rule.FoldedOver more
  | .node _, h => himp _ h
  | .token _, h => himp _ h
  | .labeled _ _, h => ⟨himp _ h.1, Rule.FoldedOver.mono himp h.2⟩
  | .opt rule, h => @Rule.FoldedOver.mono _ _ himp rule h
  | .rep rule, h => @Rule.FoldedOver.mono _ _ himp rule h
  | .seq _, h => ⟨h.1, AllFoldedOver.mono himp h.2⟩
  | .alt _, h => ⟨h.1, AllFoldedOver.mono himp h.2⟩

theorem AllFoldedOver.mono {allowed more : Glyph → Prop} (himp : ∀ g, allowed g → more g) :
    ∀ {rules : List Rule}, AllFoldedOver allowed rules → AllFoldedOver more rules
  | [], _ => trivial
  | _ :: _, h => ⟨Rule.FoldedOver.mono himp h.1, AllFoldedOver.mono himp h.2⟩

end

/-! ## Outlines -/

mutual

/-- No group of the outline is around a single part. -/
def Outline.Folded : Outline → Prop
  | .terminal _ => True
  | .nonTerminal _ => True
  | .labeled _ inner => inner.Folded
  | .group choices => (∀ outline, choices ≠ [[outline]]) ∧ ChoicesFolded choices
  | .optional choices => ChoicesFolded choices
  | .zeroOrMore choices => ChoicesFolded choices

/-- No group of a sequence is around a single part. -/
def SequenceFolded : List Outline → Prop
  | [] => True
  | outline :: rest => outline.Folded ∧ SequenceFolded rest

/-- No group of any alternative is around a single part. -/
def ChoicesFolded : List (List Outline) → Prop
  | [] => True
  | sequence :: rest => SequenceFolded sequence ∧ ChoicesFolded rest

end

/-- All three readings of a rule are folded. -/
structure RuleViews.Folded (views : RuleViews) : Prop where
  part : views.part.Folded
  sequence : SequenceFolded views.sequence
  choices : ChoicesFolded views.choices

theorem RuleViews.Folded.ofPart {outline : Outline} (h : outline.Folded) :
    (RuleViews.ofPart outline).Folded :=
  ⟨h, ⟨h, trivial⟩, ⟨⟨h, trivial⟩, trivial⟩⟩

mutual

/-- A folded rule has folded readings. -/
theorem views_folded {allowed : Glyph → Prop} :
    ∀ rule : Rule, rule.FoldedOver allowed → rule.views.Folded
  | .node _, _ => .ofPart trivial
  | .token _, _ => .ofPart trivial
  | .labeled _ rule, h => .ofPart (views_folded rule h.2).part
  | .opt rule, h => .ofPart (views_folded rule h).choices
  | .rep rule, h => .ofPart (views_folded rule h).choices
  | .seq rules, h => by
      -- As a part, a sequence is a group around its parts, which are two at least.
      have hsequence := (viewsAll_folded rules h.2).1
      rw [Rule.views]
      refine ⟨⟨?_, hsequence, trivial⟩, hsequence, hsequence, trivial⟩
      intro outline hsingle
      have hlength := congrArg List.length (List.cons.inj hsingle).1
      have htwo := h.1
      simp only [viewsAll_eq_map, List.length_map, List.length_singleton] at hlength
      omega
  | .alt rules, h => by
      -- As a part, an alternation is a group around alternatives, which are two at least.
      have hchoices := (viewsAll_folded rules h.2).2
      have hmany : ∀ outline, (viewsAll rules).map RuleViews.sequence ≠ [[outline]] := by
        intro outline hsingle
        have hlength := congrArg List.length hsingle
        have htwo := h.1
        simp only [viewsAll_eq_map, List.length_map, List.length_singleton] at hlength
        omega
      rw [Rule.views]
      exact ⟨⟨hmany, hchoices⟩, ⟨⟨hmany, hchoices⟩, trivial⟩, hchoices⟩

/-- Folded rules are folded as the parts of a sequence, and as alternatives. -/
theorem viewsAll_folded {allowed : Glyph → Prop} :
    ∀ rules : List Rule, AllFoldedOver allowed rules →
      SequenceFolded ((viewsAll rules).map RuleViews.part) ∧
        ChoicesFolded ((viewsAll rules).map RuleViews.sequence)
  | [], _ => ⟨trivial, trivial⟩
  | rule :: rules, h => by
      have hrule := views_folded rule h.1
      obtain ⟨hsequence, hchoices⟩ := viewsAll_folded rules h.2
      exact ⟨⟨hrule.part, hsequence⟩, hrule.sequence, hchoices⟩

end

end TreeSmith

import Mathlib.Data.List.Pairwise
import TreeSmith.Proofs.Lexical.Tiling

/-!
# TreeSmith.Proofs.Lexical.Order

**Lexemes lie in the order of their text.** No lexeme is empty, each ends before the next one
starts, and all lie within the text (`inOrder_of_tokenize`). Comments are not empty either
(`nonempty_of_tokenize`), and no lexeme lies in one (`apart_of_tokenize`).
-/

namespace TreeSmith

/-- Spans in the order of a text: none of them is empty, and each ends before the next starts. -/
structure InOrder (spans : List Span) : Prop where
  nonempty : ∀ span ∈ spans, span.start < span.stop
  apart : spans.Pairwise fun a b => a.stop ≤ b.start

namespace InOrder

theorem nil : InOrder [] :=
  ⟨List.forall_mem_nil _, List.Pairwise.nil⟩

theorem sublist {spans fewer : List Span} (h : InOrder spans) (hsub : fewer.Sublist spans) :
    InOrder fewer :=
  ⟨fun span hspan => h.nonempty span (hsub.subset hspan), h.apart.sublist hsub⟩

theorem cons_iff {span : Span} {spans : List Span} : InOrder (span :: spans) ↔
    span.start < span.stop ∧ (∀ b ∈ spans, span.stop ≤ b.start) ∧ InOrder spans := by
  constructor
  · rintro ⟨hne, hapart⟩
    obtain ⟨hfirst, hrest⟩ := List.pairwise_cons.1 hapart
    exact ⟨hne span (by simp), hfirst, fun b hb => hne b (by simp [hb]), hrest⟩
  · rintro ⟨hspan, hfirst, hne, hapart⟩
    refine ⟨?_, List.pairwise_cons.2 ⟨hfirst, hapart⟩⟩
    intro b hb
    rcases List.mem_cons.1 hb with rfl | hb
    · exact hspan
    · exact hne b hb

theorem append_iff {spans more : List Span} : InOrder (spans ++ more) ↔
    InOrder spans ∧ InOrder more ∧ ∀ a ∈ spans, ∀ b ∈ more, a.stop ≤ b.start := by
  constructor
  · intro h
    exact ⟨h.sublist (List.sublist_append_left _ _), h.sublist (List.sublist_append_right _ _),
      (List.pairwise_append.1 h.apart).2.2⟩
  · rintro ⟨hspans, hmore, hapart⟩
    refine ⟨?_, List.pairwise_append.2 ⟨hspans.apart, hmore.apart, hapart⟩⟩
    intro b hb
    rcases List.mem_append.1 hb with hb | hb
    · exact hspans.nonempty b hb
    · exact hmore.nonempty b hb

end InOrder

/-- The tokens of some characters lie in order, between their offset and their end. -/
theorem Tiled.inOrder {offset : Nat} {cs : List Char} {tokens : List RawToken}
    (h : Tiled offset cs tokens) : InOrder (tokens.map RawToken.span) ∧
      ∀ token ∈ tokens, offset ≤ token.span.start ∧
        token.span.stop ≤ offset + Text.size cs := by
  induction h with
  | done => exact ⟨InOrder.nil, List.forall_mem_nil _⟩
  | @token offset blanks taken rest kind others hblanks hmunched hrest ih =>
      obtain ⟨hothers, hbounds⟩ := ih
      have htaken := List.length_pos_iff.2 hmunched.ne_nil
      have hsize := Text.length_le_size taken
      simp only [Text.size_append, List.forall_mem_cons]
      refine ⟨InOrder.cons_iff.2 ⟨by dsimp only; omega, ?_, hothers⟩, by omega, ?_⟩
      · intro span hspan
        obtain ⟨token, htoken, rfl⟩ := List.mem_map.1 hspan
        exact (hbounds token htoken).1
      · intro token htoken
        have := hbounds token htoken
        omega

theorem span_of_lexeme? {token : RawToken} {lexeme : Lexeme} (h : token.lexeme? = some lexeme) :
    lexeme.span = token.span := by
  unfold RawToken.lexeme? at h
  split at h
  · cases h
  · rw [← Option.some.inj h]
  · rw [← Option.some.inj h]

theorem span_of_comment? {token : RawToken} {comment : Comment}
    (h : token.comment? = some comment) : comment.span = token.span := by
  unfold RawToken.comment? at h
  split at h
  · rw [← Option.some.inj h]
  · cases h

/-- The spans of what is read off some tokens are among those of the tokens, in the same order. -/
theorem sublist_span_filterMap {α : Type} {read : RawToken → Option α} {spanOf : α → Span}
    (hspan : ∀ {token found}, read token = some found → spanOf found = token.span)
    (tokens : List RawToken) :
    ((tokens.filterMap read).map spanOf).Sublist (tokens.map RawToken.span) := by
  induction tokens with
  | nil => exact List.Sublist.refl _
  | cons token tokens ih =>
      cases hread : read token with
      | none =>
          rw [List.filterMap_cons_none hread, List.map_cons]
          exact ih.cons _
      | some found =>
          rw [List.filterMap_cons_some hread, List.map_cons, List.map_cons, hspan hread]
          exact ih.cons_cons _

/-- **Lexemes lie in the order of their text**, and within it. -/
theorem inOrder_of_tokenize {text : String} {lexemes : Lexemes}
    (h : tokenize text = .ok lexemes) : InOrder (lexemes.lexemes.map Lexeme.span) ∧
      ∀ lexeme ∈ lexemes.lexemes, lexeme.span.stop ≤ Text.size text.toList := by
  obtain ⟨tokens, htiled, hlexemes, -⟩ := exists_tiled_of_tokenize h
  obtain ⟨horder, hbounds⟩ := htiled.inOrder
  rw [hlexemes]
  refine ⟨horder.sublist (sublist_span_filterMap span_of_lexeme? tokens), ?_⟩
  intro lexeme hlexeme
  obtain ⟨token, htoken, hspan⟩ := List.mem_filterMap.1 hlexeme
  rw [span_of_lexeme? hspan]
  exact (hbounds token htoken).2.trans_eq (Nat.zero_add _)

/-- No comment is empty: it has its marker at least. -/
theorem nonempty_of_tokenize {text : String} {lexemes : Lexemes}
    (h : tokenize text = .ok lexemes) :
    ∀ comment ∈ lexemes.comments, comment.span.start < comment.span.stop := by
  obtain ⟨tokens, htiled, -, hcomments⟩ := exists_tiled_of_tokenize h
  rw [hcomments]
  intro comment hcomment
  obtain ⟨token, htoken, hread⟩ := List.mem_filterMap.1 hcomment
  rw [span_of_comment? hread]
  exact htiled.inOrder.1.nonempty _ (List.mem_map_of_mem htoken)

/-- No lexeme lies in a comment, not even with a part of it. -/
theorem apart_of_tokenize {text : String} {lexemes : Lexemes} (h : tokenize text = .ok lexemes) :
    ∀ comment ∈ lexemes.comments, ∀ lexeme ∈ lexemes.lexemes,
      comment.span.stop ≤ lexeme.span.start ∨ lexeme.span.stop ≤ comment.span.start := by
  obtain ⟨tokens, htiled, hlexemes, hcomments⟩ := exists_tiled_of_tokenize h
  rw [hlexemes, hcomments]
  intro comment hcomment lexeme hlexeme
  obtain ⟨a, ha, hcomment⟩ := List.mem_filterMap.1 hcomment
  obtain ⟨b, hb, hlexeme⟩ := List.mem_filterMap.1 hlexeme
  have hne : a ≠ b := by
    rintro rfl
    unfold RawToken.lexeme? at hlexeme
    unfold RawToken.comment? at hcomment
    split at hcomment <;> simp_all
  have hapart : tokens.Pairwise fun a b =>
      a.span.stop ≤ b.span.start ∨ b.span.stop ≤ a.span.start :=
    (List.pairwise_map.1 htiled.inOrder.1.apart).imp Or.inl
  have hsymm : Std.Symm fun a b : RawToken =>
      a.span.stop ≤ b.span.start ∨ b.span.stop ≤ a.span.start := ⟨fun _ _ => Or.symm⟩
  rw [span_of_comment? hcomment, span_of_lexeme? hlexeme]
  exact hapart.forall ha hb hne

end TreeSmith

import TreeSmith.Proofs.Lexical.Order
import TreeSmith.Proofs.Text.Slice

/-!
# TreeSmith.Proofs.Lexical.Covering

**Lexemes and comments are the text, but for white space.** `tokenize` hands out two lists; merged
by where their members start they are the tokens again (`merge_spans`), so they lie one behind the
other and leave out nothing but white space (`covers_of_tokenize`).
-/

namespace TreeSmith

/-- The spans of lexemes and comments, merged by where they start. -/
def Lexemes.spans (lexemes : Lexemes) : List Span :=
  List.merge (lexemes.lexemes.map Lexeme.span) (lexemes.comments.map Comment.span)
    fun a b => decide (a.start ≤ b.start)

/-- The lexemes and comments of a text, with white space between them, and each as long as it can
be. -/
structure Lexemes.Covers (lexemes : Lexemes) (text : List Char) : Prop where
  inOrder : InOrder lexemes.spans
  inside : ∀ span ∈ lexemes.spans, ∃ chars, Text.slice? text span = some chars
  outside : ∀ before c after, text = before ++ c :: after → Text.isBlank c = true ∨
    ∃ span ∈ lexemes.spans, span.start ≤ Text.size before ∧ Text.size before < span.stop
  comment : ∀ comment ∈ lexemes.comments, ∃ behind,
    Text.slice? text ⟨comment.span.stop, Text.size text⟩ = some behind ∧
      ∀ c ∈ behind.head?, c = '\n'
  ident : ∀ lexeme ∈ lexemes.lexemes, lexeme.kind = .ident → ∃ behind,
    Text.slice? text ⟨lexeme.span.stop, Text.size text⟩ = some behind ∧
      ∀ c ∈ behind.head?, isIdentRest c = false

/-- A token is either a lexeme or a comment. -/
theorem lexeme?_comment?_cases (token : RawToken) :
    (∃ lexeme, token.lexeme? = some lexeme ∧ token.comment? = none) ∨
      ∃ comment, token.lexeme? = none ∧ token.comment? = some comment := by
  obtain ⟨kind, span, chars⟩ := token
  cases kind <;> simp [RawToken.lexeme?, RawToken.comment?]

theorem kind_of_lexeme? {token : RawToken} {lexeme : Lexeme} (h : token.lexeme? = some lexeme) :
    lexeme.kind = token.kind := by
  unfold RawToken.lexeme? at h
  split at h
  · cases h
  · rename_i hkind
    rw [← Option.some.inj h, hkind]
  · rw [← Option.some.inj h]

theorem kind_of_comment? {token : RawToken} {comment : Comment}
    (h : token.comment? = some comment) : token.kind = .comment := by
  unfold RawToken.comment? at h
  split at h
  · assumption
  · cases h

/-- **Lexemes and comments can be merged again** to the tokens that they were taken from. -/
theorem merge_spans {tokens : List RawToken} (h : InOrder (tokens.map RawToken.span)) :
    Lexemes.spans ⟨tokens.filterMap RawToken.lexeme?, tokens.filterMap RawToken.comment?⟩ =
      tokens.map RawToken.span := by
  induction tokens with
  | nil => simp [Lexemes.spans]
  | cons token tokens ih =>
      obtain ⟨hnonempty, hfirst, hothers⟩ := InOrder.cons_iff.1 h
      have ih := ih hothers
      simp only [Lexemes.spans] at ih ⊢
      rcases lexeme?_comment?_cases token with ⟨lexeme, hlexeme, hcomment⟩ |
          ⟨comment, hlexeme, hcomment⟩
      · -- A lexeme starts before every comment that follows.
        rw [List.filterMap_cons_some hlexeme, List.filterMap_cons_none hcomment, List.map_cons,
          List.map_cons, span_of_lexeme? hlexeme, ← ih]
        have hbehind : ∀ b ∈ (tokens.filterMap RawToken.comment?).map Comment.span,
            token.span.start ≤ b.start := by
          intro b hb
          have := hfirst b ((sublist_span_filterMap span_of_comment? tokens).subset hb)
          omega
        cases hcomments : (tokens.filterMap RawToken.comment?).map Comment.span with
        | nil => rw [List.merge_right, List.merge_right]
        | cons b comments =>
            rw [hcomments] at hbehind
            exact List.cons_merge_cons_pos _ _ _ (decide_eq_true (hbehind b List.mem_cons_self))
      · -- A comment starts before every lexeme that follows.
        rw [List.filterMap_cons_none hlexeme, List.filterMap_cons_some hcomment, List.map_cons,
          List.map_cons, span_of_comment? hcomment, ← ih]
        have hbehind : ∀ a ∈ (tokens.filterMap RawToken.lexeme?).map Lexeme.span,
            ¬ a.start ≤ token.span.start := by
          intro a ha
          have := hfirst a ((sublist_span_filterMap span_of_lexeme? tokens).subset ha)
          omega
        cases hlexemes : (tokens.filterMap RawToken.lexeme?).map Lexeme.span with
        | nil => rw [List.nil_merge, List.nil_merge]
        | cons a lexemes =>
            rw [hlexemes] at hbehind
            exact List.cons_merge_cons_neg _ _ _ (by simpa using hbehind a List.mem_cons_self)

/-- A token can be cut out of the text, and so can what is behind it. -/
theorem Tiled.exists_slice {text : List Char} {tokens : List RawToken} (h : Tiled 0 text tokens) :
    ∀ token ∈ tokens, Text.slice? text token.span = some token.chars ∧ ∃ behind,
      Text.slice? text ⟨token.span.stop, Text.size text⟩ = some behind ∧
        Munched token.kind token.chars behind := by
  intro token htoken
  obtain ⟨before, after, rfl, hstart, hstop, hmunched⟩ := h.stands token htoken
  rw [Nat.zero_add] at hstart
  refine ⟨Text.slice?_eq_some_iff.2 ⟨before, after, rfl, hstart, hstop⟩, after, ?_, hmunched⟩
  rw [← List.append_assoc]
  exact Text.slice?_rest_iff.2 ⟨_, rfl, by rw [hstop, hstart, Text.size_append]⟩

/-- **Lexemes and comments are the text, but for white space.** -/
theorem covers_of_tokenize {text : String} {lexemes : Lexemes} (h : tokenize text = .ok lexemes) :
    lexemes.Covers text.toList := by
  obtain ⟨tokens, htiled, hlexemes, hcomments⟩ := exists_tiled_of_tokenize h
  have hspans : lexemes.spans = tokens.map RawToken.span := by
    rw [← merge_spans htiled.inOrder.1, ← hlexemes, ← hcomments]
  refine ⟨hspans ▸ htiled.inOrder.1, ?_, ?_, ?_, ?_⟩
  · intro span hspan
    rw [hspans] at hspan
    obtain ⟨token, htoken, rfl⟩ := List.mem_map.1 hspan
    exact ⟨token.chars, (htiled.exists_slice token htoken).1⟩
  · intro before c after htext
    refine (htiled.isBlank_or_inside htext).imp_right ?_
    rintro ⟨token, htoken, hstart, hstop⟩
    rw [Nat.zero_add] at hstart hstop
    exact ⟨token.span, hspans ▸ List.mem_map_of_mem htoken, hstart, hstop⟩
  · intro comment hcomment
    rw [hcomments] at hcomment
    obtain ⟨token, htoken, hread⟩ := List.mem_filterMap.1 hcomment
    obtain ⟨-, behind, hslice, hmunched⟩ := htiled.exists_slice token htoken
    rw [kind_of_comment? hread] at hmunched
    exact ⟨behind, span_of_comment? hread ▸ hslice, hmunched.of_comment.2⟩
  · intro lexeme hlexeme hkind
    rw [hlexemes] at hlexeme
    obtain ⟨token, htoken, hread⟩ := List.mem_filterMap.1 hlexeme
    obtain ⟨-, behind, hslice, hmunched⟩ := htiled.exists_slice token htoken
    rw [← kind_of_lexeme? hread, hkind] at hmunched
    exact ⟨behind, span_of_lexeme? hread ▸ hslice, hmunched.of_ident⟩

end TreeSmith

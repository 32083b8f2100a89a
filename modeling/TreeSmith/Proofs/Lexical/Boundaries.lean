import TreeSmith.Proofs.Lexical.Order
import TreeSmith.Proofs.Text.Position

/-!
# TreeSmith.Proofs.Lexical.Boundaries

**Tokens stand where their spans say.** What is in front of a token has as many bytes as its span
starts at, and the token as many as it is long. So no lexeme starts or stops inside a character of
the text (`isBoundary_of_tokenize`).
-/

namespace TreeSmith

/-- **No lexeme starts or stops inside a character.** -/
theorem isBoundary_of_tokenize {text : String} {lexemes : Lexemes}
    (h : tokenize text = .ok lexemes) : ∀ lexeme ∈ lexemes.lexemes,
      Text.IsBoundary text.toList lexeme.span.start ∧
        Text.IsBoundary text.toList lexeme.span.stop := by
  obtain ⟨tokens, htiled, hlexemes, -⟩ := exists_tiled_of_tokenize h
  rw [hlexemes]
  intro lexeme hlexeme
  obtain ⟨token, htoken, hread⟩ := List.mem_filterMap.1 hlexeme
  obtain ⟨before, after, htext, hstart, hstop, -⟩ := htiled.stands token htoken
  rw [Nat.zero_add] at hstart
  rw [span_of_lexeme? hread]
  refine ⟨⟨before, _, htext, hstart⟩, before ++ token.chars, after, ?_, ?_⟩
  · rw [htext, List.append_assoc]
  · rw [hstop, hstart, Text.size_append]

end TreeSmith

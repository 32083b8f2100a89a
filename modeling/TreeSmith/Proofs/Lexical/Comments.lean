import TreeSmith.Proofs.Code.Lines
import TreeSmith.Proofs.Lexical.Order
import TreeSmith.Proofs.Written.Text

/-!
# TreeSmith.Proofs.Lexical.Comments

**A comment is read to the end of its line.** The line feed behind a comment is no part of it, so
the comments of a grammar that was read from a text have no line feed in them
(`singleLine_of_ofText`).
-/

namespace TreeSmith

theorem sublist_commentText (comment : List Char) : (commentText comment).Sublist comment := by
  have hback := (List.dropWhile_sublist (l := (comment.dropWhile (· == '/')).reverse)
    (· == '\r')).reverse
  rw [List.reverse_reverse] at hback
  exact hback.trans (List.dropWhile_sublist _)

theorem singleLine_of_comment? {token : RawToken} {comment : Comment}
    (hchars : token.kind = .comment → '\n' ∉ token.chars) (h : token.comment? = some comment) :
    Text.SingleLine comment.text := by
  unfold RawToken.comment? at h
  split at h
  · rename_i hkind
    obtain rfl := Option.some.inj h
    exact Text.singleLine_ofList.2 fun hmem => hchars hkind ((sublist_commentText _).mem hmem)
  · cases h

theorem singleLine_of_tokenize {text : String} {lexemes : Lexemes}
    (h : tokenize text = .ok lexemes) :
    ∀ comment ∈ lexemes.comments, Text.SingleLine comment.text := by
  obtain ⟨tokens, htiled, -, hcomments⟩ := exists_tiled_of_tokenize h
  rw [hcomments]
  intro comment hcomment
  obtain ⟨token, htoken, hread⟩ := List.mem_filterMap.1 hcomment
  obtain ⟨_, _, -, -, -, hmunched⟩ := htiled.stands token htoken
  refine singleLine_of_comment? (fun hkind => ?_) hread
  rw [hkind] at hmunched
  exact hmunched.of_comment.1

/-- **The comments of a grammar that was read from a text are single lines.** -/
theorem singleLine_of_ofText {text : String} {grammar : Grammar}
    (h : Grammar.ofText text = .ok grammar) :
    ∀ comment ∈ grammar.comments, Text.SingleLine comment.text := by
  obtain ⟨_, _, _, hwritten, rfl⟩ := exists_written_of_ofText h
  exact singleLine_of_tokenize hwritten.tokenize

end TreeSmith

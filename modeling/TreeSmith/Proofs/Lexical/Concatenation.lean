import Mathlib
import TreeSmith.Proofs.Lexical.Tiling
import TreeSmith.Proofs.Text.Slice

/-!
# TreeSmith.Proofs.Lexical.Concatenation

**Two texts on lines of their own are read one after the other.** A line feed ends every token, so
what is read of the first text does not change if a line feed and another text follow
(`LexStream.drain_append_newline`). And a reader does not look back: a text that starts at another
offset is read in the same way, with all its places moved (`LexStream.drain_move`). Together they
say what is read of both (`tokenize_append_newline`).
-/

namespace TreeSmith

/-! ## Moving places -/

/-- The same place in a text that has so many bytes more in front. -/
def Span.move (bytes : Nat) (span : Span) : Span :=
  ⟨span.start + bytes, span.stop + bytes⟩

def RawToken.move (bytes : Nat) (token : RawToken) : RawToken :=
  { token with span := token.span.move bytes }

def Lexeme.move (bytes : Nat) (lexeme : Lexeme) : Lexeme :=
  { lexeme with span := lexeme.span.move bytes }

def Comment.move (bytes : Nat) (comment : Comment) : Comment :=
  { comment with span := comment.span.move bytes }

def LexError.move (bytes : Nat) : LexError → LexError
  | invalidChar c offset => invalidChar c (offset + bytes)
  | unterminatedLiteral offset => unterminatedLiteral (offset + bytes)
  | endOfText => endOfText

/-- Everything that was read, behind so many bytes more. -/
def Lexemes.move (bytes : Nat) (lexemes : Lexemes) : Lexemes :=
  ⟨lexemes.lexemes.map (Lexeme.move bytes), lexemes.comments.map (Comment.move bytes)⟩

/-- What was read of one text and then of another. -/
def Lexemes.append (first second : Lexemes) : Lexemes :=
  ⟨first.lexemes ++ second.lexemes, first.comments ++ second.comments⟩

theorem lexeme?_move (bytes : Nat) (token : RawToken) :
    (token.move bytes).lexeme? = token.lexeme?.map (Lexeme.move bytes) := by
  obtain ⟨kind, span, chars⟩ := token
  cases kind <;> rfl

theorem comment?_move (bytes : Nat) (token : RawToken) :
    (token.move bytes).comment? = token.comment?.map (Comment.move bytes) := by
  obtain ⟨kind, span, chars⟩ := token
  cases kind <;> rfl

namespace LexStream

/-- The same stream in a text that has so many bytes more in front. -/
def move (bytes : Nat) (stream : LexStream) : LexStream :=
  { stream with offset := stream.offset + bytes, span := stream.span.move bytes }

/-- A call does the same wherever the text starts. -/
theorem next_move (bytes : Nat) (stream : LexStream) : (stream.move bytes).next =
    (stream.next.1.mapError (LexError.move bytes), stream.next.2.move bytes) := by
  cases hmunch : munch (stream.rest.dropWhile Text.isBlank) <;>
    simp [next, move, hmunch, Except.mapError, LexError.move, Span.move, Nat.add_right_comm]

/-- **A text is read in the same way wherever it starts**, with all places moved. -/
theorem drain_move (bytes : Nat) (stream : LexStream) : (stream.move bytes).drain =
    (stream.drain.map (List.map (RawToken.move bytes))).mapError (LexError.move bytes) := by
  fun_induction drain stream with
  | case1 stream kind after hnext ih =>
      rw [drain_eq, next_move, hnext]
      simp only [Except.mapError, ih]
      cases after.drain <;> rfl
  | case2 stream after hnext =>
      rw [drain_eq, next_move, hnext]
      rfl
  | case3 stream e after hne hnext =>
      rw [drain_eq, next_move, hnext]
      cases e with
      | endOfText => exact (hne rfl).elim
      | _ => rfl

/-- The token that was read last makes no difference. -/
theorem drain_congr (offset : Nat) (cs : List Char) (span span' : Span) (slice slice' : List Char) :
    drain ⟨offset, cs, span, slice⟩ = drain ⟨offset, cs, span', slice'⟩ := by
  rw [drain_eq, drain_eq]
  cases hmunch : munch (cs.dropWhile Text.isBlank) <;> simp [next, hmunch]

end LexStream

/-! ## A text, a line feed, and another text -/

theorem map_nil_append {ε α : Type} (result : Except ε (List α)) :
    result.map ([] ++ ·) = result := by
  cases result <;> rfl

namespace LexStream

theorem drain_blanks {blanks : List Char} (h : ∀ c ∈ blanks, Text.isBlank c = true) (offset : Nat)
    (cs : List Char) (span : Span) (slice : List Char) :
    drain ⟨offset, blanks ++ cs, span, slice⟩ =
      drain ⟨offset + Text.size blanks, cs, span, slice⟩ := by
  induction blanks generalizing offset with
  | nil => rfl
  | cons c blanks ih =>
      obtain ⟨hc, hblanks⟩ := List.forall_mem_cons.1 h
      rw [List.cons_append, drain_blank hc, ih hblanks, Nat.add_assoc, ← Text.size_cons]

/-- **What was read of a text is read again** if a line feed and another text follow, and then what
is read of that. -/
theorem drain_append_newline {offset : Nat} {cs : List Char} {tokens : List RawToken}
    (h : Tiled offset cs tokens) (more : List Char) (span : Span) (slice : List Char) :
    drain ⟨offset, cs ++ '\n' :: more, span, slice⟩ =
      (drain ⟨offset + Text.size cs + 1, more, Span.zero, []⟩).map (tokens ++ ·) := by
  induction h generalizing span slice with
  | @done offset blanks hblanks =>
      rw [drain_blanks hblanks, drain_blank (by decide), drain_congr _ _ span Span.zero slice []]
      exact (map_nil_append _).symm
  | @token offset blanks taken rest kind others hblanks hmunched hrest ih =>
      obtain ⟨c, chars, rfl⟩ := List.exists_cons_of_ne_nil hmunched.ne_nil
      have hmunch : munch (c :: (chars ++ (rest ++ '\n' :: more))) =
          .token kind (c :: chars) (rest ++ '\n' :: more) :=
        munch_eq_token_iff.2 ⟨hmunched.append_newline more, rfl⟩
      rw [List.append_assoc, List.append_assoc, drain_blanks hblanks, List.cons_append,
        drain_token hmunched.not_isBlank hmunch, ih, Text.size_append, Text.size_append]
      simp only [← Nat.add_assoc]
      cases drain ⟨_, more, Span.zero, []⟩ <;> rfl

end LexStream

/-- What is taken out of tokens that have moved has moved with them. -/
theorem filterMap_map_move {α : Type} {read : RawToken → Option α} {move : α → α} {bytes : Nat}
    (h : ∀ token, read (token.move bytes) = (read token).map move) (tokens : List RawToken) :
    (tokens.map (RawToken.move bytes)).filterMap read = (tokens.filterMap read).map move := by
  rw [List.filterMap_map, List.map_filterMap]
  exact congrArg (List.filterMap · tokens) (funext h)

/-- **Both texts are read one after the other**: what is read of the first, and then what is read of
the second, or the error that is found in it, with all places moved behind the first. -/
theorem tokenize_append_newline {a : String} {first : Lexemes} (h : tokenize a = .ok first)
    (b : String) : tokenize (a ++ "\n" ++ b) =
      ((tokenize b).map fun second => first.append (second.move (a.utf8ByteSize + 1))).mapError
        (LexError.move (a.utf8ByteSize + 1)) := by
  obtain ⟨tokens, htiled, hlexemes, hcomments⟩ := exists_tiled_of_tokenize h
  have htext : (a ++ "\n" ++ b).toList = a.toList ++ '\n' :: b.toList := by simp
  have hsecond : LexStream.drain ⟨0 + Text.size a.toList + 1, b.toList, Span.zero, []⟩ =
      ((LexStream.ofList b.toList).move (a.utf8ByteSize + 1)).drain := by
    rw [← Text.size_toList, Nat.zero_add]
    simp only [LexStream.ofList, LexStream.move, Nat.zero_add]
    exact LexStream.drain_congr _ _ _ _ _ _
  rw [tokenize, htext, LexStream.ofList, LexStream.drain_append_newline htiled, hsecond,
    LexStream.drain_move, tokenize]
  cases (LexStream.ofList b.toList).drain with
  | error e => rfl
  | ok others =>
      simp only [Except.map, Except.mapError, List.filterMap_append, hlexemes, hcomments,
        Lexemes.append, Lexemes.move, filterMap_map_move (lexeme?_move _),
        filterMap_map_move (comment?_move _)]

/-- **Texts on lines of their own are read on their own**: if the first has no error in it, then the
lexemes and comments of both together are those of the first and, moved by its length and the line
feed, those of the second, and an error in the second is found, moved likewise. -/
theorem tokenize_concatenation {a b : String} {first : Lexemes} (h : tokenize a = .ok first) :
    (∀ second, tokenize b = .ok second → tokenize (a ++ "\n" ++ b) =
      .ok ⟨first.lexemes ++ second.lexemes.map (Lexeme.move (a.utf8ByteSize + 1)),
        first.comments ++ second.comments.map (Comment.move (a.utf8ByteSize + 1))⟩) ∧
    (∀ c offset, tokenize b = .error (.invalidChar c offset) →
      tokenize (a ++ "\n" ++ b) = .error (.invalidChar c (offset + a.utf8ByteSize + 1))) ∧
    ∀ offset, tokenize b = .error (.unterminatedLiteral offset) →
      tokenize (a ++ "\n" ++ b) = .error (.unterminatedLiteral (offset + a.utf8ByteSize + 1)) := by
  rw [tokenize_append_newline h]
  refine ⟨fun second hb => ?_, fun c offset hb => ?_, fun offset hb => ?_⟩
  all_goals
    rw [hb]
    rfl

/-- A comment at the end of the first text, which the line feed keeps from going on in the second,
and a literal in the second that is not closed. -/
theorem tokenize_concatenation_comment :
    tokenize "a1 //é" = .ok ⟨[⟨.ident, ⟨0, 2⟩, "a1"⟩], [⟨⟨3, 7⟩, "é"⟩]⟩ ∧
    tokenize ("a1 //é" ++ "\n" ++ "b2") =
      .ok ⟨[⟨.ident, ⟨0, 2⟩, "a1"⟩, ⟨.ident, ⟨8, 10⟩, "b2"⟩], [⟨⟨3, 7⟩, "é"⟩]⟩ ∧
    tokenize ("a1 //é" ++ "\n" ++ "b2'") = .error (.unterminatedLiteral 10) := by
  have hfirst : tokenize "a1 //é" = .ok ⟨[⟨.ident, ⟨0, 2⟩, "a1"⟩], [⟨⟨3, 7⟩, "é"⟩]⟩ := by cbv
  obtain ⟨hread, -, -⟩ := tokenize_concatenation (b := "b2") hfirst
  obtain ⟨-, -, hunclosed⟩ := tokenize_concatenation (b := "b2'") hfirst
  exact ⟨hfirst, hread ⟨[⟨.ident, ⟨0, 2⟩, "b2"⟩], []⟩ (by cbv), hunclosed 2 (by cbv)⟩

end TreeSmith

import Mathlib.Data.List.TakeWhile
import TreeSmith.Lexeme.Stream
import TreeSmith.Proofs.Lexical.Munched

/-!
# TreeSmith.Proofs.Lexical.Tiling

**A text is its tokens and white space between them.** A stream that comes to its end without an
error has cut all characters into tokens, each with white space in front of it that may be empty,
and white space behind the last one (`tiled_of_drain`). What is known of all tokens of a text is
read off this relation by induction.
-/

namespace TreeSmith

/-! ## A stream, token by token -/

namespace LexStream

/-- What a stream gives, read off its next token. -/
theorem drain_eq (stream : LexStream) :
    stream.drain = match stream.next with
      | (.ok kind, after) => after.drain.map (⟨kind, after.span, after.slice⟩ :: ·)
      | (.error .endOfText, _) => .ok []
      | (.error e, _) => .error e := by
  rw [drain]
  split
  · rename_i kind after hnext
    rw [hnext]
    simp only
    cases after.drain <;> rfl
  · rename_i hnext
    rw [hnext]
  · rename_i e after hne hnext
    rw [hnext]
    cases e with
    | endOfText => exact (hne rfl).elim
    | _ => rfl

/-- White space in front makes no difference but for the offset. -/
theorem drain_blank {c : Char} (h : Text.isBlank c = true) (offset : Nat) (cs : List Char)
    (span : Span) (slice : List Char) :
    drain ⟨offset, c :: cs, span, slice⟩ = drain ⟨offset + c.utf8Size, cs, span, slice⟩ := by
  have hnext : next ⟨offset, c :: cs, span, slice⟩ =
      next ⟨offset + c.utf8Size, cs, span, slice⟩ := by
    simp [next, h, Nat.add_assoc]
  rw [drain_eq, drain_eq, hnext]

/-- The next call answers with a token that comes first. -/
theorem next_token {c : Char} {cs taken rest : List Char} {kind : LexemeKind}
    (hblank : Text.isBlank c = false) (h : munch (c :: cs) = .token kind taken rest)
    (offset : Nat) (span : Span) (slice : List Char) :
    next ⟨offset, c :: cs, span, slice⟩ =
      (.ok kind, ⟨offset + Text.size taken, rest, ⟨offset, offset + Text.size taken⟩, taken⟩) := by
  simp [next, hblank, h]

/-- A token that comes first is the first that the stream gives. -/
theorem drain_token {c : Char} {cs taken rest : List Char} {kind : LexemeKind}
    (hblank : Text.isBlank c = false) (h : munch (c :: cs) = .token kind taken rest)
    (offset : Nat) (span : Span) (slice : List Char) :
    drain ⟨offset, c :: cs, span, slice⟩ =
      (drain ⟨offset + Text.size taken, rest, ⟨offset, offset + Text.size taken⟩, taken⟩).map
        (⟨kind, ⟨offset, offset + Text.size taken⟩, taken⟩ :: ·) := by
  rw [drain_eq, next_token hblank h]

end LexStream

/-! ## Tokens and white space -/

/-- Some characters, which start at an offset, are these tokens with white space in front of each of
them and behind the last one. -/
inductive Tiled : Nat → List Char → List RawToken → Prop
  | done {offset : Nat} {blanks : List Char} (hblanks : ∀ c ∈ blanks, Text.isBlank c = true) :
      Tiled offset blanks []
  | token {offset : Nat} {blanks taken rest : List Char} {kind : LexemeKind}
      {others : List RawToken} (hblanks : ∀ c ∈ blanks, Text.isBlank c = true)
      (hmunched : Munched kind taken rest)
      (hrest : Tiled (offset + Text.size blanks + Text.size taken) rest others) :
      Tiled offset (blanks ++ (taken ++ rest))
        (⟨kind, ⟨offset + Text.size blanks, offset + Text.size blanks + Text.size taken⟩,
          taken⟩ :: others)

/-- Nothing is read at the end only. -/
theorem munch_eq_nothing_iff {cs : List Char} : munch cs = .nothing ↔ cs = [] := by
  constructor
  · intro h
    cases cs with
    | nil => rfl
    | cons c cs =>
        simp only [munch] at h
        repeat' split at h
        all_goals cases h
  · rintro rfl
    rfl

/-- The end is reached when there is only white space left. -/
theorem LexStream.next_eq_endOfText_iff {stream : LexStream} :
    stream.next.1 = .error .endOfText ↔ ∀ c ∈ stream.rest, Text.isBlank c = true := by
  have hend : stream.next.1 = .error .endOfText ↔
      munch (stream.rest.dropWhile Text.isBlank) = .nothing := by
    unfold LexStream.next
    split <;> rename_i hmunch <;> simp [hmunch]
  rw [hend, munch_eq_nothing_iff, List.dropWhile_eq_nil_iff]

/-- **A text is its tokens and white space between them**, if it has no error in it. -/
theorem tiled_of_drain {stream : LexStream} {tokens : List RawToken}
    (h : stream.drain = .ok tokens) : Tiled stream.offset stream.rest tokens := by
  fun_induction LexStream.drain stream generalizing tokens with
  | case1 stream kind after hnext ih =>
      cases hdrain : after.drain with
      | error e => rw [hdrain] at h; cases h
      | ok others =>
          rw [hdrain] at h
          obtain rfl : ⟨kind, after.span, after.slice⟩ :: others = tokens := Except.ok.inj h
          obtain ⟨hmunch, hstart, hstop, hoffset⟩ := LexStream.next_eq_ok hnext
          have hrest := ih hdrain
          have hspan : after.span =
              ⟨stream.offset + Text.size (stream.rest.takeWhile Text.isBlank),
                stream.offset + Text.size (stream.rest.takeWhile Text.isBlank) +
                  Text.size after.slice⟩ := by
            rw [← hstart, ← hstop]
          rw [hoffset, hstop, hstart] at hrest
          rw [LexStream.rest_eq_of_next hnext, hspan]
          exact .token (forall_mem_takeWhile _) (munch_eq_token_iff.1 hmunch).1 hrest
  | case2 stream after hnext =>
      obtain rfl : [] = tokens := Except.ok.inj h
      exact .done (LexStream.next_eq_endOfText_iff.1 (by rw [hnext]))
  | case3 => cases h

/-- The tokens of a text, from which its lexemes and its comments are taken. -/
theorem exists_tiled_of_tokenize {text : String} {lexemes : Lexemes}
    (h : tokenize text = .ok lexemes) : ∃ tokens, Tiled 0 text.toList tokens ∧
      lexemes.lexemes = tokens.filterMap RawToken.lexeme? ∧
      lexemes.comments = tokens.filterMap RawToken.comment? := by
  unfold tokenize at h
  cases hdrain : (LexStream.ofList text.toList).drain with
  | error e => rw [hdrain] at h; cases h
  | ok tokens =>
      rw [hdrain] at h
      obtain rfl := Except.ok.inj h
      exact ⟨tokens, tiled_of_drain hdrain, rfl, rfl⟩

/-! ## Tokens where they stand -/

/-- A character of two texts, one after the other, is one of the first text or of the second. -/
theorem append_eq_append_cons {as bs before after : List Char} {c : Char}
    (h : as ++ bs = before ++ c :: after) :
    (∃ more, as = before ++ c :: more) ∨ ∃ more, before = as ++ more ∧ bs = more ++ c :: after := by
  rcases List.append_eq_append_iff.1 h with ⟨more, hbefore, hbs⟩ | ⟨more, has, hafter⟩
  · exact Or.inr ⟨more, hbefore, hbs⟩
  · cases more with
    | nil => exact Or.inr ⟨[], by simpa using has.symm, by simpa using hafter.symm⟩
    | cons d more =>
        obtain ⟨rfl, -⟩ := List.cons.inj hafter
        exact Or.inl ⟨more, has⟩

namespace Tiled

variable {offset : Nat} {cs : List Char} {tokens : List RawToken}

/-- A token stands where its span says, and is one there. -/
theorem stands (h : Tiled offset cs tokens) : ∀ token ∈ tokens, ∃ before after,
    cs = before ++ (token.chars ++ after) ∧
      token.span.start = offset + Text.size before ∧
      token.span.stop = token.span.start + Text.size token.chars ∧
      Munched token.kind token.chars after := by
  induction h with
  | done => exact List.forall_mem_nil _
  | @token offset blanks taken rest kind others hblanks hmunched hrest ih =>
      -- The first token stands behind white space, and the others behind both.
      refine List.forall_mem_cons.2 ⟨⟨blanks, rest, rfl, rfl, rfl, hmunched⟩, ?_⟩
      intro token htoken
      obtain ⟨before, after, rfl, hstart, hstop, hothers⟩ := ih token htoken
      refine ⟨blanks ++ (taken ++ before), after, by simp, ?_, hstop, hothers⟩
      simp only [hstart, Text.size_append, Nat.add_assoc]

/-- What is in no token is white space. -/
theorem isBlank_or_inside (h : Tiled offset cs tokens) {before after : List Char} {c : Char}
    (hcs : cs = before ++ c :: after) :
    Text.isBlank c = true ∨ ∃ token ∈ tokens,
      token.span.start ≤ offset + Text.size before ∧
        offset + Text.size before < token.span.stop := by
  induction h generalizing before with
  | done hblanks =>
      rw [hcs] at hblanks
      exact Or.inl (hblanks c (by simp))
  | @token offset blanks taken rest kind others hblanks hmunched hrest ih =>
      rcases append_eq_append_cons hcs with ⟨more, rfl⟩ | ⟨front, rfl, htaken⟩
      · exact Or.inl (hblanks c (by simp))
      rcases append_eq_append_cons htaken with ⟨more, rfl⟩ | ⟨more, rfl, hbehind⟩
      · have hwidth := c.utf8Size_pos
        refine Or.inr ⟨_, List.mem_cons_self, ?_⟩
        simp only [Text.size_append, Text.size_cons]
        omega
      · refine (ih hbehind).imp_right ?_
        rintro ⟨token, htoken, hfrom, hto⟩
        refine ⟨token, List.mem_cons_of_mem _ htoken, ?_⟩
        simp only [Text.size_append]
        omega

end Tiled

end TreeSmith

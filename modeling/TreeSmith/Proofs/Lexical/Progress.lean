import Mathlib
import TreeSmith.Proofs.Lexical.Covering
import TreeSmith.Proofs.Text.Position

/-!
# TreeSmith.Proofs.Lexical.Progress

**Asking for tokens comes to an end, whatever the text.** A stream may be asked again after an
error. Every call leaves it in a place of the text where the text can be cut, and every call that
finds something leaves less to be read. So the end is reached after no more calls than there are
characters, and then every call finds it again (`lexing_goesOn`).
-/

namespace TreeSmith

namespace LexStream

/-- The stream after so many calls, whatever they have answered. -/
def afterCalls (stream : LexStream) : Nat → LexStream
  | 0 => stream
  | calls + 1 => stream.next.2.afterCalls calls

/-- A stream that reads a text: its offset lies between two characters, what it has still to read
can be cut off there, and the token that it read last can be cut out at its span, which lies behind.
-/
structure LiesIn (stream : LexStream) (text : List Char) : Prop where
  boundary : Text.IsBoundary text stream.offset
  rest : Text.slice? text ⟨stream.offset, Text.size text⟩ = some stream.rest
  slice : Text.slice? text stream.span = some stream.slice
  behind : stream.span.stop ≤ stream.offset

/-- What the next call does to a stream that reads a text, whatever it answers. -/
structure GoesOn (stream : LexStream) (text : List Char) : Prop where
  forward : stream.offset ≤ stream.next.2.offset
  /-- The characters that the call consumes. Wherever it stands between two of them, the rest of the
  text can be cut off. -/
  consumes : ∃ consumed, stream.rest = consumed ++ stream.next.2.rest ∧
    stream.next.2.offset = stream.offset + Text.size consumed ∧
    (stream.next.1 ≠ .error .endOfText → consumed ≠ []) ∧
    ∀ front back, consumed = front ++ back →
      Text.slice? text ⟨stream.offset + Text.size front, Text.size text⟩ =
        some (back ++ stream.next.2.rest)
  error : ∀ e, stream.next.1 = .error e →
    stream.next.2.span = stream.span ∧ stream.next.2.slice = stream.slice
  /-- The image of a literal is read off what stands between its quotes, which can be cut out. -/
  literal : stream.next.1 = .ok .literal → ∃ inside,
    Text.slice? stream.next.2.slice ⟨1, Text.size stream.next.2.slice - 1⟩ = some inside ∧
      literalImage stream.next.2.slice = unescape inside

/-! ## One call -/

theorem munch_invalid_append {c : Char} {cs rest : List Char} (h : munch cs = .invalid c rest) :
    cs = c :: rest := by
  cases cs with
  | nil => cases h
  | cons d cs =>
      simp only [munch] at h
      repeat' split at h
      all_goals simp_all

/-- A call consumes white space, and then at least one character more unless it is at the end. -/
theorem exists_consumed (stream : LexStream) : ∃ front,
    stream.rest = stream.rest.takeWhile Text.isBlank ++ (front ++ stream.next.2.rest) ∧
      stream.next.2.offset =
        stream.offset + Text.size (stream.rest.takeWhile Text.isBlank ++ front) ∧
      (stream.next.1 ≠ .error .endOfText → front ≠ []) := by
  have hrest := (List.takeWhile_append_dropWhile (p := Text.isBlank) (l := stream.rest)).symm
  unfold next
  split <;> rename_i hmunch <;> dsimp only
  · refine ⟨[], ?_, by simp, fun h => absurd rfl h⟩
    rw [munch_eq_nothing_iff.1 hmunch] at hrest
    simpa using hrest
  · rename_i kind taken rest
    refine ⟨taken, ?_, by simp [Nat.add_assoc], fun _ => munch_token_ne_nil hmunch⟩
    rwa [munch_token_append hmunch]
  · rename_i c rest
    refine ⟨[c], ?_, by simp [Nat.add_assoc], fun _ => List.cons_ne_nil _ _⟩
    rwa [munch_invalid_append hmunch] at hrest
  · refine ⟨stream.rest.dropWhile Text.isBlank, by rwa [List.append_nil],
      by rw [Text.size_append, Nat.add_assoc], fun _ hnil => ?_⟩
    rw [hnil] at hmunch
    cases hmunch

theorem next_of_error {stream : LexStream} {e : LexError} (h : stream.next.1 = .error e) :
    stream.next.2.span = stream.span ∧ stream.next.2.slice = stream.slice := by
  unfold next at h ⊢
  split <;> simp_all

theorem next_of_ok {stream : LexStream} {kind : LexemeKind} (h : stream.next.1 = .ok kind) :
    stream.next = (.ok kind, stream.next.2) :=
  Prod.ext h rfl

/-- **A call goes on in the text**, whatever it answers. -/
theorem LiesIn.goesOn {stream : LexStream} {text : List Char} (h : stream.LiesIn text) :
    stream.GoesOn text := by
  obtain ⟨before, htext, hoffset⟩ := Text.slice?_rest_iff.1 h.rest
  obtain ⟨front, hrest, hnext, hfront⟩ := exists_consumed stream
  refine ⟨by omega, ⟨_, by rw [List.append_assoc]; exact hrest, hnext, fun hend => ?_, ?_⟩,
    fun e => next_of_error, fun hliteral => ?_⟩
  · exact List.append_ne_nil_of_right_ne_nil _ (hfront hend)
  · intro front back hconsumed
    rw [← List.append_assoc, hconsumed] at hrest
    refine Text.slice?_rest_iff.2 ⟨before ++ front, ?_, by rw [Text.size_append, hoffset]⟩
    rw [htext, hrest]
    simp only [List.append_assoc]
  · have hmunch := (next_eq_ok (next_of_ok hliteral)).1
    obtain ⟨inside, hinside⟩ := (munch_eq_token_iff.1 hmunch).1.of_literal
    rw [hinside]
    refine ⟨inside, Text.slice?_eq_some_iff.2 ⟨['\x27'], ['\x27'], rfl, rfl, ?_⟩, ?_⟩
    · simp only [Text.size_cons, Text.size_append, Text.size_nil]
      rw [show Char.utf8Size '\x27' = 1 from by decide]
      omega
    · simp [literalImage]

/-- A stream that reads a text reads it after the next call. -/
theorem LiesIn.next {stream : LexStream} {text : List Char} (h : stream.LiesIn text) :
    stream.next.2.LiesIn text := by
  obtain ⟨before, htext, hoffset⟩ := Text.slice?_rest_iff.1 h.rest
  obtain ⟨front, hrest, hnext, -⟩ := exists_consumed stream
  rw [← List.append_assoc] at hrest
  have hbehind : text = before ++ (stream.rest.takeWhile Text.isBlank ++ front) ++
      stream.next.2.rest := by
    rw [List.append_assoc, ← hrest, htext]
  have hplace : stream.next.2.offset =
      Text.size (before ++ (stream.rest.takeWhile Text.isBlank ++ front)) := by
    rw [hnext, hoffset, ← Text.size_append]
  refine ⟨⟨_, _, hbehind, hplace⟩, Text.slice?_rest_iff.2 ⟨_, hbehind, hplace⟩, ?_, ?_⟩
  all_goals cases hanswer : stream.next.1 with
    | error e => _
    | ok kind => _
  · rw [(next_of_error hanswer).1, (next_of_error hanswer).2]
    exact h.slice
  · obtain ⟨-, hstart, hstop, hend⟩ := next_eq_ok (next_of_ok hanswer)
    have hread := rest_eq_of_next (next_of_ok hanswer)
    refine Text.slice?_eq_some_iff.2 ⟨before ++ stream.rest.takeWhile Text.isBlank,
      stream.next.2.rest, ?_, by rw [hstart, hoffset, Text.size_append], hstop⟩
    rw [List.append_assoc, ← hread, htext]
  · rw [(next_of_error hanswer).1]
    have := h.behind
    omega
  · obtain ⟨-, hstart, hstop, hend⟩ := next_eq_ok (next_of_ok hanswer)
    exact hend.ge

theorem liesIn_ofList (text : List Char) : (ofList text).LiesIn text :=
  ⟨⟨[], text, rfl, rfl⟩, Text.slice?_rest_iff.2 ⟨[], rfl, rfl⟩,
    Text.slice?_eq_some_iff.2 ⟨[], text, rfl, rfl, rfl⟩, Nat.le_refl _⟩

/-! ## Any number of calls -/

/-- A stream reads its text after any number of calls. -/
theorem LiesIn.afterCalls {stream : LexStream} {text : List Char} (h : stream.LiesIn text)
    (calls : Nat) : (stream.afterCalls calls).LiesIn text := by
  induction calls generalizing stream with
  | zero => exact h
  | succ calls ih => exact ih h.next

/-- What has come to the end stays there. -/
theorem afterCalls_endOfText {stream : LexStream} (h : stream.next.1 = .error .endOfText)
    (calls : Nat) : (stream.afterCalls calls).next.1 = .error .endOfText := by
  induction calls generalizing stream with
  | zero => exact h
  | succ calls ih =>
      refine ih (next_eq_endOfText_iff.2 fun c hc => next_eq_endOfText_iff.1 h c ?_)
      obtain ⟨front, hrest, -, -⟩ := exists_consumed stream
      rw [hrest]
      exact List.mem_append_right _ (List.mem_append_right _ hc)

/-- **The end comes**, after no more calls than there are characters left, and from then on. -/
theorem exists_calls_endOfText (stream : LexStream) : ∃ found ≤ stream.rest.length, ∀ calls,
    (stream.afterCalls calls).next.1 = .error .endOfText ↔ found ≤ calls := by
  induction hlength : stream.rest.length using Nat.strong_induction_on generalizing stream with
  | _ length ih =>
      by_cases hend : stream.next.1 = .error .endOfText
      · exact ⟨0, Nat.zero_le _, fun calls =>
          ⟨fun _ => Nat.zero_le _, fun _ => afterCalls_endOfText hend calls⟩⟩
      -- The call has consumed a character, so one call more is allowed for.
      obtain ⟨front, hrest, -, hfront⟩ := exists_consumed stream
      have hshorter := congrArg List.length hrest
      have hconsumed := List.length_pos_iff.2 (hfront hend)
      simp only [List.length_append] at hshorter
      obtain ⟨found, hfound, hcalls⟩ := ih stream.next.2.rest.length (by omega) stream.next.2 rfl
      refine ⟨found + 1, by omega, fun calls => ?_⟩
      cases calls with
      | zero => exact ⟨fun h => absurd h hend, fun h => absurd h (Nat.not_succ_le_zero _)⟩
      | succ calls => exact (hcalls calls).trans Nat.succ_le_succ_iff.symm

end LexStream

/-- **Lexing goes on to the end**, whatever the text: after any number of calls the stream stands in
its text and the next call goes on from there, until the end is found by all further calls; and if
there was no error, lexemes and comments cover the text. -/
theorem lexing_goesOn (text : String) :
    (∀ calls, ((LexStream.ofList text.toList).afterCalls calls).LiesIn text.toList ∧
      ((LexStream.ofList text.toList).afterCalls calls).GoesOn text.toList) ∧
    (∃ found ≤ text.toList.length, ∀ calls,
      ((LexStream.ofList text.toList).afterCalls calls).next.1 = .error .endOfText ↔
        found ≤ calls) ∧
    ∀ lexemes, tokenize text = .ok lexemes → lexemes.Covers text.toList := by
  refine ⟨fun calls => ?_, LexStream.exists_calls_endOfText (LexStream.ofList text.toList),
    fun _ => covers_of_tokenize⟩
  have hlies := (LexStream.liesIn_ofList text.toList).afterCalls calls
  exact ⟨hlies, hlies.goesOn⟩

/-- A name with a digit, white space of two bytes, a literal with a backslash and a quote in it, and
a comment up to the end of the text, next to it. -/
theorem lexing_goesOn_escaped : ∃ lexemes, tokenize "B1\u00a0'\\\\\\''//é" = .ok lexemes ∧
    lexemes.spans = [⟨0, 2⟩, ⟨4, 10⟩, ⟨10, 14⟩] ∧
    lexemes.Covers "B1\u00a0'\\\\\\''//é".toList := by
  have hread : tokenize "B1\u00a0'\\\\\\''//é" =
      .ok ⟨[⟨.ident, ⟨0, 2⟩, "B1"⟩, ⟨.literal, ⟨4, 10⟩, "\\'"⟩], [⟨⟨10, 14⟩, "é"⟩]⟩ := by cbv
  exact ⟨_, hread, by simp [Lexemes.spans], (lexing_goesOn _).2.2 _ hread⟩

end TreeSmith

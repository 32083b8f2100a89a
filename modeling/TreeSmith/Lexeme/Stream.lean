import TreeSmith.Lexeme.Basic
import TreeSmith.Text.Blank
import TreeSmith.Text.Size

/-!
# TreeSmith.Lexeme.Stream

**Reading tokens one after the other.** A stream remembers how far it has come and which token it
read last. Asking for the next token skips white space, then reads one; after an error it can be
asked again, and goes on behind the character that was no token.

`tokenize` reads to the end and keeps the comments apart from the lexemes, both in the order of
the text. It ends because every token leaves a shorter text (`next_rest_lt`).
-/

namespace TreeSmith

/-- A text that is being read. -/
structure LexStream where
  /-- How many bytes lie behind. -/
  offset : Nat
  /-- What is still to be read. -/
  rest : List Char
  /-- The place of the token that was read last. -/
  span : Span
  /-- The characters of that token. -/
  slice : List Char
  deriving Repr

namespace LexStream

/-- A stream at the start of `text`. -/
def ofList (text : List Char) : LexStream :=
  ⟨0, text, Span.zero, []⟩

/-- Reads the next token. An error leaves the last token as it was. -/
def next (stream : LexStream) : Except LexError LexemeKind × LexStream :=
  let start := stream.offset + Text.size (stream.rest.takeWhile Text.isBlank)
  match munch (stream.rest.dropWhile Text.isBlank) with
  | .nothing => (.error .endOfText, { stream with offset := start, rest := [] })
  | .token kind taken rest =>
    let stop := start + Text.size taken
    (.ok kind, ⟨stop, rest, ⟨start, stop⟩, taken⟩)
  | .invalid c rest =>
    (.error (.invalidChar c start), { stream with offset := start + c.utf8Size, rest })
  | .unterminated =>
    (.error (.unterminatedLiteral start),
      { stream with
        offset := start + Text.size (stream.rest.dropWhile Text.isBlank), rest := [] })

/-- A token that was read stands behind white space, and what is read next behind the token. -/
theorem next_eq_ok {stream after : LexStream} {kind : LexemeKind}
    (h : stream.next = (.ok kind, after)) :
    munch (stream.rest.dropWhile Text.isBlank) = .token kind after.slice after.rest ∧
      after.span.start = stream.offset + Text.size (stream.rest.takeWhile Text.isBlank) ∧
      after.span.stop = after.span.start + Text.size after.slice ∧
      after.offset = after.span.stop := by
  unfold next at h
  split at h <;> simp only [Prod.mk.injEq, reduceCtorEq, false_and] at h
  rename_i found taken rest hmunch
  obtain ⟨hfound, rfl⟩ := h
  rw [← Except.ok.inj hfound]
  exact ⟨hmunch, rfl, rfl, rfl⟩

/-- Nothing of the text is lost. -/
theorem rest_eq_of_next {stream after : LexStream} {kind : LexemeKind}
    (h : stream.next = (.ok kind, after)) :
    stream.rest = stream.rest.takeWhile Text.isBlank ++ (after.slice ++ after.rest) := by
  rw [munch_token_append (next_eq_ok h).1, List.takeWhile_append_dropWhile]

/-- A token that was read leaves a shorter text. -/
theorem next_rest_lt {stream after : LexStream} {kind : LexemeKind}
    (h : stream.next = (.ok kind, after)) : after.rest.length < stream.rest.length := by
  have hlength := congrArg List.length (rest_eq_of_next h)
  have htoken := List.length_pos_iff.2 (munch_token_ne_nil (next_eq_ok h).1)
  simp only [List.length_append] at hlength
  omega

end LexStream

/-! ## All tokens of a text -/

/-- A token of any kind with its place and its characters. -/
structure RawToken where
  kind : LexemeKind
  span : Span
  chars : List Char
  deriving DecidableEq, Repr

/-- All tokens up to the end of the text, or the first error. -/
def LexStream.drain (stream : LexStream) : Except LexError (List RawToken) :=
  match _h : stream.next with
  | (.ok kind, after) => do
    let tokens ← after.drain
    return ⟨kind, after.span, after.slice⟩ :: tokens
  | (.error .endOfText, _) => .ok []
  | (.error e, _) => .error e
termination_by stream.rest.length
decreasing_by exact next_rest_lt _h

/-- The lexeme that a token stands for; a comment stands for none. -/
def RawToken.lexeme? (token : RawToken) : Option Lexeme :=
  match token.kind with
  | .comment => none
  | .literal => some ⟨.literal, token.span, String.ofList (literalImage token.chars)⟩
  | kind => some ⟨kind, token.span, String.ofList token.chars⟩

/-- The comment that a token is, if it is one. -/
def RawToken.comment? (token : RawToken) : Option Comment :=
  match token.kind with
  | .comment => some ⟨token.span, String.ofList (commentText token.chars)⟩
  | _ => none

/-- The lexemes and the comments of a text, each in order. -/
structure Lexemes where
  lexemes : List Lexeme
  comments : List Comment
  deriving DecidableEq, Repr

/-- Cuts a text into lexemes and comments. -/
def tokenize (text : String) : Except LexError Lexemes :=
  (LexStream.ofList text.toList).drain.map fun tokens =>
    ⟨tokens.filterMap RawToken.lexeme?, tokens.filterMap RawToken.comment?⟩

end TreeSmith

import TreeSmith.Grammar.Basic
import TreeSmith.Text.Quoted

/-!
# TreeSmith.Lexeme.Basic

**The tokens of a grammar text, with their places.** A lexeme is a token that is no comment; its
text is the token's own text, except for a literal, whose text is the image it stands for.

Design points:

* `munch` reads one token off a text that starts with no white space, and says what it took and
  what is left. It knows nothing about offsets: those are sizes of what was taken
  (`TreeSmith.Lexeme.Stream`).
* It never loses a character: what was taken and what is left are the text
  (`munch_token_append`).
-/

namespace TreeSmith

/-- The kinds of token. -/
inductive LexemeKind where
  | ident
  /-- A quoted terminal. -/
  | literal
  | comment
  | eq
  | pipe
  | question
  | star
  | colon
  | openParen
  | closeParen
  deriving DecidableEq, Repr

/-- Why no token could be read. Offsets are where the token would have started. -/
inductive LexError where
  | invalidChar (c : Char) (offset : Nat)
  | unterminatedLiteral (offset : Nat)
  | endOfText
  deriving DecidableEq, Repr

/-- The wording of a lexical error. -/
def LexError.message : LexError → String
  | invalidChar c offset =>
    "invalid character " ++ Text.quoted c ++ " at offset " ++ toString offset
  | unterminatedLiteral offset =>
    "unterminated literal starting at offset " ++ toString offset
  | endOfText => "end of file"

/-- A token that is no comment, with its place and its text. -/
structure Lexeme where
  kind : LexemeKind
  span : Span
  text : String
  deriving DecidableEq, Repr

/-! ## One token -/

/-- What a text starts with. -/
inductive Munch where
  /-- Nothing: the text is empty. -/
  | nothing
  /-- The characters `taken` are a token, and `rest` follows it. -/
  | token (kind : LexemeKind) (taken rest : List Char)
  /-- No token starts with `c`. -/
  | invalid (c : Char) (rest : List Char)
  /-- A literal without its closing quote; it reaches to the end. -/
  | unterminated
  deriving DecidableEq, Repr

/-- The rest of a literal after its opening quote: what belongs to it, with the closing quote,
and what follows. A backslash takes the next character with it, whatever that is. -/
def closeLiteral : List Char → Option (List Char × List Char)
  | [] => none
  | ['\\'] => none
  | '\\' :: c :: cs => (closeLiteral cs).map fun (body, rest) => ('\\' :: c :: body, rest)
  | c :: cs =>
    if c = '\x27' then some ([c], cs)
    else (closeLiteral cs).map fun (body, rest) => (c :: body, rest)

/-- The characters that start an identifier. -/
def isIdentStart (c : Char) : Bool :=
  c.isAlpha || c == '_'

/-- The characters that continue an identifier. -/
def isIdentRest (c : Char) : Bool :=
  c.isAlphanum || c == '_'

/-- The kind of a token that is always one character long. -/
def singleKind? (c : Char) : Option LexemeKind :=
  if c = '=' then some .eq
  else if c = '|' then some .pipe
  else if c = '?' then some .question
  else if c = '*' then some .star
  else if c = ':' then some .colon
  else if c = '(' then some .openParen
  else if c = ')' then some .closeParen
  else none

/-- Reads one token off a text that starts with no white space. A comment reaches to the line
feed, which is not part of it, and an identifier as far as it can. -/
def munch : List Char → Munch
  | [] => .nothing
  | c :: cs =>
    match singleKind? c with
    | some kind => .token kind [c] cs
    | none =>
      if c = '/' ∧ cs.head? = some '/' then
        .token .comment (c :: cs.takeWhile (· != '\n')) (cs.dropWhile (· != '\n'))
      else if c = '\x27' then
        match closeLiteral cs with
        | some (body, rest) => .token .literal (c :: body) rest
        | none => .unterminated
      else if isIdentStart c then
        .token .ident (c :: cs.takeWhile isIdentRest) (cs.dropWhile isIdentRest)
      else
        .invalid c cs

theorem closeLiteral_append {cs body rest : List Char} (h : closeLiteral cs = some (body, rest)) :
    body ++ rest = cs := by
  fun_induction closeLiteral cs generalizing body with
  | case1 => simp at h
  | case2 => simp at h
  | case3 c cs ih =>
    obtain ⟨⟨b, r⟩, hb, e⟩ := Option.map_eq_some_iff.1 h
    obtain ⟨rfl, rfl⟩ := Prod.mk.inj e
    simp [ih hb]
  | case4 cs _ _ =>
    obtain ⟨rfl, rfl⟩ := Prod.mk.inj (Option.some.inj h)
    rfl
  | case5 c cs _ _ _ ih =>
    obtain ⟨⟨b, r⟩, hb, e⟩ := Option.map_eq_some_iff.1 h
    obtain ⟨rfl, rfl⟩ := Prod.mk.inj e
    simp [ih hb]

/-- A token and what follows it are the text. -/
theorem munch_token_append {cs taken rest : List Char} {kind : LexemeKind}
    (h : munch cs = .token kind taken rest) : taken ++ rest = cs := by
  cases cs with
  | nil => simp [munch] at h
  | cons c cs =>
    simp only [munch] at h
    split at h
    · obtain ⟨-, rfl, rfl⟩ := Munch.token.inj h
      simp
    split at h
    · obtain ⟨-, rfl, rfl⟩ := Munch.token.inj h
      simp
    split at h
    · split at h
      · rename_i _ _ hc
        obtain ⟨-, rfl, rfl⟩ := Munch.token.inj h
        simp [closeLiteral_append hc]
      · simp at h
    split at h
    · obtain ⟨-, rfl, rfl⟩ := Munch.token.inj h
      simp
    · simp at h

/-- A token takes at least one character. -/
theorem munch_token_ne_nil {cs taken rest : List Char} {kind : LexemeKind}
    (h : munch cs = .token kind taken rest) : taken ≠ [] := by
  cases cs with
  | nil => simp [munch] at h
  | cons c cs =>
    simp only [munch] at h
    repeat' split at h
    all_goals simp_all
    all_goals obtain ⟨-, rfl, -⟩ := h; simp

/-! ## The text of a lexeme -/

/-- The characters that the inside of a literal stands for: a backslash gives way to the
character after it. -/
def unescape : List Char → List Char
  | [] => []
  | ['\\'] => []
  | '\\' :: c :: cs => c :: unescape cs
  | c :: cs => c :: unescape cs

/-- The image of a literal, given the literal with its quotes. -/
def literalImage (literal : List Char) : List Char :=
  unescape (literal.drop 1).dropLast

/-- The text of a comment, given the comment with its marker: all slashes that it starts with and
all carriage returns that it ends with are left out. -/
def commentText (comment : List Char) : List Char :=
  ((comment.dropWhile (· == '/')).reverse.dropWhile (· == '\r')).reverse

end TreeSmith

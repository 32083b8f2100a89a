/-!
# TreeSmith.Rule.Token

**The tokens of the grammar notation.** They carry lines and columns, which messages about a
rejected text are given in.

Design points:

* The notation is stricter than the lexemes of `TreeSmith.Lexeme`: blanks are the space, the tab
  and the line feed alone, identifiers have no digits, and a backslash in a literal may only
  stand before a backslash or a quote.
* The whole text is cut into tokens before any of it is parsed, so an error found here comes
  before every other.
-/

namespace TreeSmith

/-- A line and a column, both counted from zero; columns count characters. -/
structure Place where
  line : Nat
  column : Nat
  deriving DecidableEq, Repr, Inhabited

namespace Place

/-- The start of a text. -/
def origin : Place := ⟨0, 0⟩

/-- The place behind a character. -/
def step (place : Place) (c : Char) : Place :=
  if c = '\n' then ⟨place.line + 1, 0⟩ else ⟨place.line, place.column + 1⟩

/-- The place behind some characters. -/
def advance (place : Place) (cs : List Char) : Place :=
  cs.foldl step place

/-- A place as messages show it, counted from one. -/
def render (place : Place) : String :=
  toString (place.line + 1) ++ ":" ++ toString (place.column + 1)

end Place

/-- Why a text is no grammar. -/
inductive RuleFault where
  | invalidEscape
  | unclosedLiteral
  | carriageReturn
  | unexpectedChar (c : Char)
  | expectedIdent
  | expectedEq
  | expectedCloseParen
  | unexpectedToken
  | leadingPipe
  | duplicateRule (name : String)
  | unexpectedEnd
  | undefinedNode (name : String)
  deriving DecidableEq, Repr

/-- The wording of a fault. -/
def RuleFault.message : RuleFault → String
  | invalidEscape => "invalid escape in token literal"
  | unclosedLiteral => "unclosed token literal"
  | carriageReturn => "unexpected `\\r`, only Unix-style line endings allowed"
  | unexpectedChar c => "unexpected character: `" ++ c.toString ++ "`"
  | expectedIdent => "expected ident"
  | expectedEq => "unexpected token, expected `=`"
  | expectedCloseParen => "unexpected token, expected `)`"
  | unexpectedToken => "unexpected token"
  | leadingPipe =>
    "The first element in a sequence of productions or alternatives " ++
      "must not have a leading pipe (`|`)"
  | duplicateRule name => "duplicate rule: `" ++ name ++ "`"
  | unexpectedEnd => "unexpected EOF"
  | undefinedNode name => "Undefined node: " ++ name

/-- A fault and where it was found. A fault of the text as a whole has no place. -/
structure RuleError where
  fault : RuleFault
  place : Option Place
  deriving DecidableEq, Repr

/-- The wording of an error, after its place if it has one. -/
def RuleError.message (e : RuleError) : String :=
  match e.place with
  | some place => place.render ++ ": " ++ e.fault.message
  | none => e.fault.message

/-! ## Tokens -/

/-- A token without its place. -/
inductive Glyph where
  | ident (name : String)
  /-- A literal, by the image it stands for. -/
  | literal (image : String)
  | eq
  | star
  | pipe
  | question
  | colon
  | openParen
  | closeParen
  deriving DecidableEq, Repr

/-- A token of the notation. -/
structure RuleToken where
  glyph : Glyph
  place : Place
  deriving DecidableEq, Repr

/-- The characters of identifiers. -/
def isNameChar (c : Char) : Bool :=
  c.isAlpha || c == '_'

/-- The blanks of the notation. -/
def isNotationBlank (c : Char) : Bool :=
  c == ' ' || c == '\t' || c == '\n'

/-- The rest of a literal after its opening quote: its image, the characters it takes with the
closing quote, and what follows. -/
def readImage : List Char → Except RuleFault (List Char × List Char × List Char)
  | [] => .error .unclosedLiteral
  | ['\\'] => .error .invalidEscape
  | '\\' :: c :: cs =>
    if c = '\\' ∨ c = '\x27' then
      (readImage cs).map fun (image, taken, rest) => (c :: image, '\\' :: c :: taken, rest)
    else .error .invalidEscape
  | c :: cs =>
    if c = '\x27' then .ok ([], [c], cs)
    else (readImage cs).map fun (image, taken, rest) => (c :: image, c :: taken, rest)

/-- The token that a character always is by itself. -/
def singleGlyph? (c : Char) : Option Glyph :=
  if c = '=' then some .eq
  else if c = '*' then some .star
  else if c = '?' then some .question
  else if c = '(' then some .openParen
  else if c = ')' then some .closeParen
  else if c = '|' then some .pipe
  else if c = ':' then some .colon
  else none

/-- What a text `c :: cs` that starts with neither a blank nor a comment starts with: a token, the
characters it takes, and what follows. -/
def readGlyph (c : Char) (cs : List Char) : Except RuleFault (Glyph × List Char × List Char) :=
  match singleGlyph? c with
  | some glyph => .ok (glyph, [c], cs)
  | none =>
    if c = '\x27' then
      (readImage cs).map fun (image, taken, rest) =>
        (.literal (String.ofList image), c :: taken, rest)
    else if isNameChar c then
      let more := cs.takeWhile isNameChar
      .ok (.ident (String.ofList (c :: more)), c :: more, cs.dropWhile isNameChar)
    else if c = '\r' then .error .carriageReturn
    else .error (.unexpectedChar c)

theorem readImage_append {cs image taken rest : List Char}
    (h : readImage cs = .ok (image, taken, rest)) : taken ++ rest = cs := by
  fun_induction readImage cs generalizing image taken with
  | case1 => simp at h
  | case2 => simp at h
  | case3 c cs _ ih =>
    cases hr : readImage cs with
    | error e => simp [hr, Except.map] at h
    | ok r =>
      obtain ⟨i, t, r⟩ := r
      simp only [hr, Except.map, Except.ok.injEq, Prod.mk.injEq] at h
      obtain ⟨-, rfl, rfl⟩ := h
      simp [ih hr]
  | case4 => simp at h
  | case5 cs =>
    simp only [Except.ok.injEq, Prod.mk.injEq] at h
    obtain ⟨-, rfl, rfl⟩ := h
    rfl
  | case6 c cs _ _ _ ih =>
    cases hr : readImage cs with
    | error e => simp [hr, Except.map] at h
    | ok r =>
      obtain ⟨i, t, r⟩ := r
      simp only [hr, Except.map, Except.ok.injEq, Prod.mk.injEq] at h
      obtain ⟨-, rfl, rfl⟩ := h
      simp [ih hr]

/-- What a token takes and what follows it are the text. -/
theorem readGlyph_append {c : Char} {cs taken rest : List Char} {glyph : Glyph}
    (h : readGlyph c cs = .ok (glyph, taken, rest)) : taken ++ rest = c :: cs := by
  unfold readGlyph at h
  split at h
  · simp only [Except.ok.injEq, Prod.mk.injEq] at h
    obtain ⟨-, rfl, rfl⟩ := h
    rfl
  split at h
  · cases hr : readImage cs with
    | error e => simp [hr, Except.map] at h
    | ok r =>
      obtain ⟨i, t, r⟩ := r
      simp only [hr, Except.map, Except.ok.injEq, Prod.mk.injEq] at h
      obtain ⟨-, rfl, rfl⟩ := h
      simp [readImage_append hr]
  split at h
  · simp only [Except.ok.injEq, Prod.mk.injEq] at h
    obtain ⟨-, rfl, rfl⟩ := h
    simp
  split at h <;> simp at h

/-- What follows a token is shorter than the text. -/
theorem readGlyph_rest_le {c : Char} {cs taken rest : List Char} {glyph : Glyph}
    (h : readGlyph c cs = .ok (glyph, taken, rest)) : rest.length ≤ cs.length := by
  have happ := congrArg List.length (readGlyph_append h)
  have htaken : taken ≠ [] := by
    unfold readGlyph at h
    split at h
    · simp only [Except.ok.injEq, Prod.mk.injEq] at h
      simp [← h.2.1]
    split at h
    · cases hr : readImage cs with
      | error e => simp [hr, Except.map] at h
      | ok r =>
        simp only [hr, Except.map, Except.ok.injEq, Prod.mk.injEq] at h
        simp [← h.2.1]
    split at h
    · simp only [Except.ok.injEq, Prod.mk.injEq] at h
      simp [← h.2.1]
    split at h <;> simp at h
  have := List.length_pos_iff.2 htaken
  simp only [List.length_append, List.length_cons] at happ
  omega

/-! ## All tokens of a text -/

/-- Cuts a text that starts at `place` into tokens, or finds the first fault. A comment reaches
from two slashes to the line feed. -/
def ruleTokensFrom (place : Place) : List Char → Except RuleError (List RuleToken)
  | [] => .ok []
  | c :: cs =>
    if isNotationBlank c then ruleTokensFrom (place.step c) cs
    else if c = '/' ∧ cs.head? = some '/' then
      ruleTokensFrom ((place.step c).advance (cs.takeWhile (· != '\n')))
        (cs.dropWhile (· != '\n'))
    else
      match _h : readGlyph c cs with
      | .error fault => .error ⟨fault, some place⟩
      | .ok (glyph, taken, rest) => do
        let tokens ← ruleTokensFrom (place.advance taken) rest
        return ⟨glyph, place⟩ :: tokens
termination_by cs => cs.length
decreasing_by
  · simp
  · exact Nat.lt_succ_of_le (List.dropWhile_sublist _).length_le
  · exact Nat.lt_succ_of_le (readGlyph_rest_le _h)

/-- All tokens of a text. -/
def ruleTokens (text : String) : Except RuleError (List RuleToken) :=
  ruleTokensFrom Place.origin text.toList

end TreeSmith

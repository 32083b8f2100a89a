import Mathlib.Algebra.Ring.Parity
import TreeSmith.Java.Literal
import TreeSmith.Proofs.NodeType.Fields

/-!
# TreeSmith.Proofs.Java.StringLiteral

**An escaped text between quotes is a string literal that denotes the text.** Java reads a file
twice: first it replaces every `\u` whose backslash is not itself escaped, then it reads literals,
which end at the first quote that is not escaped and on the line on which they start. What stands
behind an odd number of backslashes is escaped. Any place of an escaped text is inside of one escape
or holds a character that stands for itself (`escapedAt`), and both passes are read off that.
-/

namespace TreeSmith.Java

/-! ## Literals -/

/-- How many backslashes a text ends in. -/
def trailingBackslashes (cs : List Char) : Nat :=
  (cs.reverse.takeWhile (· == '\\')).length

/-- What an escape stands for, given the character behind its backslash. -/
def escaped? (c : Char) : Option Char :=
  if c = '\\' then some '\\'
  else if c = '"' then some '"'
  else if c = 'n' then some '\n'
  else if c = 'r' then some '\r'
  else if c = 't' then some '\t'
  else none

/-- What the inside of a literal denotes, read from left to right. -/
def decode : List Char → Option (List Char)
  | [] => some []
  | ['\\'] => none
  | '\\' :: c :: cs => (escaped? c).bind fun d => (decode cs).map (d :: ·)
  | c :: cs => (decode cs).map (c :: ·)

/-- The text is one string literal, and this is what it denotes. -/
structure Denotes (literal value : String) : Prop where
  decoded : ∃ inside, literal.toList = '"' :: (inside ++ ['"']) ∧
    decode inside = some value.toList
  oneLine : '\n' ∉ literal.toList ∧ '\r' ∉ literal.toList
  /-- Of the quotes behind the first, the last one is not escaped, and all others are. -/
  closes : ∀ before after, literal.toList = before ++ '"' :: after → before ≠ [] →
    (Even (trailingBackslashes before) ↔ after = [])
  /-- No backslash starts a Unicode escape: one with a `u` behind it is itself escaped. -/
  noUnicode : ∀ before after, literal.toList = before ++ '\\' :: 'u' :: after →
    Odd (trailingBackslashes before)

/-! ## Escaped characters -/

/-- The character stands for itself inside a literal. -/
def IsPlain (c : Char) : Prop :=
  c ≠ '\\' ∧ c ≠ '"' ∧ c ≠ '\n' ∧ c ≠ '\r'

/-- A character is written as it is, or as an escape that stands for it. -/
theorem escapeChar_cases (c : Char) : (escapeChar c = [c] ∧ IsPlain c) ∨
    ∃ letter, escapeChar c = ['\\', letter] ∧ escaped? letter = some c := by
  unfold escapeChar
  split
  · rename_i hc
    exact Or.inr ⟨'\\', rfl, by rw [hc]; rfl⟩
  split
  · rename_i hc
    exact Or.inr ⟨'"', rfl, by rw [hc]; rfl⟩
  split
  · rename_i hc
    exact Or.inr ⟨'n', rfl, by rw [hc]; rfl⟩
  split
  · rename_i hc
    exact Or.inr ⟨'r', rfl, by rw [hc]; rfl⟩
  split
  · rename_i hc
    exact Or.inr ⟨'t', rfl, by rw [hc]; rfl⟩
  · rename_i hescape hquote hfeed hreturn _
    exact Or.inl ⟨rfl, hescape, hquote, hfeed, hreturn⟩

theorem decode_plain {c : Char} (h : c ≠ '\\') (cs : List Char) :
    decode (c :: cs) = (decode cs).map (c :: ·) := by
  rw [decode]
  · exact fun hc => absurd hc h
  · exact fun _ _ hc => absurd hc h

/-- **Decoding undoes escaping.** -/
theorem decode_flatMap_escapeChar (text : List Char) :
    decode (text.flatMap escapeChar) = some text := by
  induction text with
  | nil => rfl
  | cons c text ih =>
      rw [List.flatMap_cons]
      rcases escapeChar_cases c with ⟨hc, hplain⟩ | ⟨letter, hc, hletter⟩
      · rw [hc, List.singleton_append, decode_plain hplain.1, ih]
        rfl
      · rw [hc, List.cons_append, List.singleton_append, decode, hletter, ih]
        rfl

/-! ## Places in an escaped text -/

theorem trailingBackslashes_append (as bs : List Char) : trailingBackslashes (as ++ bs) =
    if trailingBackslashes bs = bs.length then bs.length + trailingBackslashes as
    else trailingBackslashes bs := by
  unfold trailingBackslashes
  rw [List.reverse_append, List.takeWhile_append, List.length_reverse]
  split <;> simp

/-- Only what stands behind the last character of another kind counts. -/
theorem trailingBackslashes_cons {c : Char} (h : c ≠ '\\') (cs : List Char) :
    trailingBackslashes (c :: cs) = trailingBackslashes cs := by
  have hnone : trailingBackslashes [c] = 0 := by simp [trailingBackslashes, h]
  rw [← List.singleton_append, trailingBackslashes_append, hnone]
  split
  · omega
  · rfl

/-- A whole escape in front makes no difference to whether their number is even. -/
theorem even_trailingBackslashes_escape (letter : Char) (cs : List Char) :
    Even (trailingBackslashes ('\\' :: letter :: cs)) ↔ Even (trailingBackslashes cs) := by
  have hpair : Even (trailingBackslashes ['\\', letter]) := by
    by_cases hletter : letter = '\\' <;> simp [trailingBackslashes, hletter, even_two]
  have hsplit : '\\' :: letter :: cs = ['\\', letter] ++ cs := rfl
  rw [hsplit, trailingBackslashes_append]
  split
  · rename_i hall
    rw [hall, Nat.even_add, iff_true_right hpair]
  · rfl

/-- What can be at a place of an escaped text: a character that stands for itself, the backslash of
an escape, or the character behind it. -/
inductive EscapedAt (before : List Char) (c : Char) (after : List Char) : Prop
  | plain (hbefore : Even (trailingBackslashes before)) (hplain : IsPlain c)
  | backslash (hbefore : Even (trailingBackslashes before)) (hc : c = '\\') {letter value : Char}
      {rest : List Char} (hafter : after = letter :: rest) (hletter : escaped? letter = some value)
  | letter (hbefore : Odd (trailingBackslashes before)) {value : Char}
      (hletter : escaped? c = some value)

theorem EscapedAt.congr {before before' after : List Char} {c : Char}
    (h : EscapedAt before c after)
    (hparity : Even (trailingBackslashes before') ↔ Even (trailingBackslashes before)) :
    EscapedAt before' c after := by
  cases h with
  | plain hbefore hplain => exact .plain (hparity.2 hbefore) hplain
  | backslash hbefore hc hafter hletter => exact .backslash (hparity.2 hbefore) hc hafter hletter
  | letter hbefore hletter =>
      refine .letter ?_ hletter
      rw [← Nat.not_even_iff_odd] at hbefore ⊢
      exact fun heven => hbefore (hparity.1 heven)

/-- **Every place of an escaped text** is one of these. -/
theorem escapedAt {text before after : List Char} {c : Char}
    (h : text.flatMap escapeChar = before ++ c :: after) : EscapedAt before c after := by
  induction text generalizing before with
  | nil => simp at h
  | cons d text ih =>
      rw [List.flatMap_cons] at h
      rcases escapeChar_cases d with ⟨hd, hplain⟩ | ⟨letter, hd, hletter⟩
      · rw [hd, List.singleton_append] at h
        rcases List.cons_eq_append_iff.1 h with ⟨rfl, hhere⟩ | ⟨front, rfl, hbehind⟩
        · obtain ⟨rfl, -⟩ := List.cons.inj hhere
          exact .plain (by decide) hplain
        · exact (ih hbehind).congr (by rw [trailingBackslashes_cons hplain.1])
      · rw [hd, List.cons_append, List.singleton_append] at h
        -- The place is at the backslash of the first escape, at its letter, or behind it.
        rcases List.cons_eq_append_iff.1 h with ⟨rfl, hhere⟩ | ⟨front, rfl, hmore⟩
        · obtain ⟨hc, hafter⟩ := List.cons.inj hhere
          exact .backslash (by decide) hc hafter hletter
        rcases List.cons_eq_append_iff.1 hmore with ⟨rfl, hhere⟩ | ⟨front, rfl, hbehind⟩
        · obtain ⟨rfl, -⟩ := List.cons.inj hhere
          exact .letter (by decide) hletter
        · exact (ih hbehind).congr (even_trailingBackslashes_escape letter front)

/-- There is no line end in an escaped text. -/
theorem notMem_flatMap_escapeChar (text : List Char) :
    '\n' ∉ text.flatMap escapeChar ∧ '\r' ∉ text.flatMap escapeChar := by
  constructor <;> intro hmem
  all_goals
    obtain ⟨before, after, hsplit⟩ := List.append_of_mem hmem
    cases escapedAt hsplit with
    | plain _ hplain => simp [IsPlain] at hplain
    | backslash _ hc => simp at hc
    | letter _ hletter => simp [escaped?] at hletter

/-- A quote in an escaped text is escaped. -/
theorem odd_trailingBackslashes_of_quote {text before after : List Char}
    (h : text.flatMap escapeChar = before ++ '"' :: after) : Odd (trailingBackslashes before) := by
  cases escapedAt h with
  | plain _ hplain => simp [IsPlain] at hplain
  | backslash _ hc => simp at hc
  | letter hbefore => exact hbefore

/-- An escaped text does not end inside of an escape. -/
theorem even_trailingBackslashes_flatMap_escapeChar (text : List Char) :
    Even (trailingBackslashes (text.flatMap escapeChar)) := by
  induction text with
  | nil => decide
  | cons c text ih =>
      rw [List.flatMap_cons]
      rcases escapeChar_cases c with ⟨hc, hplain⟩ | ⟨letter, hc, -⟩
      · rwa [hc, List.singleton_append, trailingBackslashes_cons hplain.1]
      · rwa [hc, List.cons_append, List.singleton_append, even_trailingBackslashes_escape]

/-! ## Escaped texts between quotes -/

/-- A place of a text between quotes is at one of the quotes or in the text. -/
theorem quoted_eq_append {inside before after : List Char} {c : Char}
    (h : '"' :: (inside ++ ['"']) = before ++ c :: after) :
    (before = [] ∧ c = '"') ∨ (before = '"' :: inside ∧ c = '"' ∧ after = []) ∨
      ∃ front more,
        before = '"' :: front ∧ inside = front ++ c :: more ∧ after = more ++ ['"'] := by
  rcases List.cons_eq_append_iff.1 h with ⟨hbefore, hhere⟩ | ⟨front, hbefore, hinside⟩
  · exact Or.inl ⟨hbefore, (List.cons.inj hhere).1⟩
  rcases List.eq_nil_or_concat after with rfl | ⟨more, d, rfl⟩
  · obtain ⟨rfl, hlast⟩ := List.append_inj' hinside rfl
    exact Or.inr (Or.inl ⟨hbefore, (List.cons.inj hlast).1.symm, rfl⟩)
  · have hconcat : inside ++ ['"'] = (front ++ c :: more) ++ [d] := by simpa using hinside
    obtain ⟨hfront, hlast⟩ := List.append_inj' hconcat rfl
    exact Or.inr (Or.inr ⟨front, more, hbefore, hfront, by rw [List.concat_eq_append, hlast]⟩)

/-- **An escaped text between quotes is a literal that denotes it.** -/
theorem denotes_escape (text : String) : Denotes ("\"" ++ escape text ++ "\"") text := by
  have hliteral : ("\"" ++ escape text ++ "\"").toList =
      '"' :: (text.toList.flatMap escapeChar ++ ['"']) := by
    simp [escape]
  refine ⟨⟨_, hliteral, decode_flatMap_escapeChar _⟩, ?_, ?_, ?_⟩
  · rw [hliteral]
    simpa using notMem_flatMap_escapeChar text.toList
  · intro before after hsplit hbefore
    rw [hliteral] at hsplit
    rcases quoted_eq_append hsplit with ⟨hnil, -⟩ | ⟨rfl, -, rfl⟩ | ⟨front, more, rfl, hfront, rfl⟩
    · exact absurd hnil hbefore
    · rw [trailingBackslashes_cons (by decide)]
      exact iff_of_true (even_trailingBackslashes_flatMap_escapeChar _) rfl
    · rw [trailingBackslashes_cons (by decide), ← Nat.not_odd_iff_even]
      exact iff_of_false (not_not_intro (odd_trailingBackslashes_of_quote hfront)) (by simp)
  · intro before after hsplit
    rw [hliteral] at hsplit
    rcases quoted_eq_append hsplit with ⟨-, hc⟩ | ⟨-, hc, -⟩ | ⟨front, more, rfl, hfront, hafter⟩
    · simp at hc
    · simp at hc
    rw [trailingBackslashes_cons (by decide)]
    cases escapedAt hfront with
    | plain _ hplain => exact absurd rfl hplain.1
    | backslash _ _ hmore hletter =>
        -- No escape has this letter.
        rw [hmore, List.cons_append] at hafter
        rw [← (List.cons.inj hafter).1] at hletter
        simp [escaped?] at hletter
    | letter hbefore => exact hbefore

end TreeSmith.Java

namespace TreeSmith

/-- The initial value of a terminal is a call with its escaped image between quotes. -/
theorem initial_partField_terminal {config : Config} {span : Span} {image : String}
    {code : Option String} (himage : image ≠ "") (i : Nat) :
    (partField config (.terminal span image code) i).initial =
      some ("new " ++ config.nodeToken ++ "(" ++ ("\"" ++ Java.escape image ++ "\"") ++ ")") := by
  have hcall : partInitial config (.terminal span image code) =
      some ("new " ++ config.nodeToken ++ "(" ++ ("\"" ++ Java.escape image ++ "\"") ++ ")") := by
    have hopen : "(\"" = "(" ++ "\"" := rfl
    have hclose : "\")" = "\"" ++ ")" := rfl
    rw [partInitial, if_neg (by simpa using himage), hopen, hclose]
    simp only [String.append_assoc]
  rw [partField, hcall, Option.filter_some]
  simp

/-- **Tokens are built with their images.** An escaped text between quotes is a string literal that
denotes the text; and a terminal whose image is not empty, if it is part `i` of a production without
a choice, is held by field `i`, whose initial value is a call of the token class with a literal that
denotes the image. -/
theorem tokens_denote :
    (∀ text, Java.Denotes ("\"" ++ Java.escape text ++ "\"") text) ∧
    ∀ (config : Config) (production : Production) (choices : Choices) (i : Nat) (span : Span)
      (image : String) (code : Option String), production.choices? = some choices →
      isChoice choices = false → choices.flatten[i]? = some (.terminal span image code) →
      image ≠ "" →
      ∃ field literal, (NodeType.lower config production).fields[i]? = some field ∧
        field.type = config.nodeToken ∧
        field.initial = some ("new " ++ config.nodeToken ++ "(" ++ literal ++ ")") ∧
        Java.Denotes literal image := by
  refine ⟨Java.denotes_escape, ?_⟩
  intro config production choices i span image code hchoices hchoice hpart himage
  refine ⟨partField config (.terminal span image code) i, _, ?_, rfl,
    initial_partField_terminal himage i, Java.denotes_escape image⟩
  rw [fields_lower, hchoices]
  simp [hchoice, hpart]

/-- An image that looks like a Unicode escape of a quote, with a quote behind it. -/
theorem tokens_denote_unicode : ∃ field literal,
    (NodeType.lower { nodeToken := "Token" } ⟨"A", ⟨0, 17⟩, .choices
      [[.nonTerminal ⟨4, 5⟩ "B" none, .terminal ⟨6, 17⟩ "\\u0022\"" none]]⟩).fields[1]? =
        some field ∧
      field.type = "Token" ∧ field.initial = some ("new " ++ "Token" ++ "(" ++ literal ++ ")") ∧
      Java.Denotes literal "\\u0022\"" :=
  tokens_denote.2 { nodeToken := "Token" } ⟨"A", ⟨0, 17⟩, .choices
    [[.nonTerminal ⟨4, 5⟩ "B" none, .terminal ⟨6, 17⟩ "\\u0022\"" none]]⟩ _ 1 ⟨6, 17⟩
    "\\u0022\"" none rfl rfl rfl (by decide)

end TreeSmith

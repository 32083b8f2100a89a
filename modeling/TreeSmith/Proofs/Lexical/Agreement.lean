import Mathlib
import TreeSmith.Proofs.Lexical.Order
import TreeSmith.Rule.Token

/-!
# TreeSmith.Proofs.Lexical.Agreement

**The two lexers agree.** A text that can be cut into tokens of the notation can be cut into
lexemes too, and the lexemes are the tokens: one for one, in order and in the same places, with the
same kind and the same text (`ruleTokens_agree`).

The lexer of lexemes is the more generous of the two, so the proof is about what the notation
rules out: white space other than its three blanks, digits behind a name, and escapes other than
those of the backslash and the quote.
-/

namespace TreeSmith

/-- The kind of lexeme that a token is. -/
def Glyph.kind : Glyph → LexemeKind
  | .ident _ => .ident
  | .literal _ => .literal
  | .eq => .eq
  | .star => .star
  | .pipe => .pipe
  | .question => .question
  | .colon => .colon
  | .openParen => .openParen
  | .closeParen => .closeParen

/-- The text of the lexeme that a token is. -/
def Glyph.text : Glyph → String
  | .ident name => name
  | .literal image => image
  | .eq => "="
  | .star => "*"
  | .pipe => "|"
  | .question => "?"
  | .colon => ":"
  | .openParen => "("
  | .closeParen => ")"

/-- The lexeme that a token is, written at `span`. -/
def Glyph.lexeme (glyph : Glyph) (span : Span) : Lexeme :=
  ⟨glyph.kind, span, glyph.text⟩

/-- The lexeme is the token: only the place tells what the token does not. -/
def Spells (token : RuleToken) (lexeme : Lexeme) : Prop :=
  lexeme = token.glyph.lexeme lexeme.span

/-- The lexeme is the token and starts where the token does, in a text that starts at this offset
and at this place. -/
structure SpellsIn (offset : Nat) (place : Place) (cs : List Char) (token : RuleToken)
    (lexeme : Lexeme) : Prop where
  spells : Spells token lexeme
  starts : ∃ before after, cs = before ++ after ∧
    lexeme.span.start = offset + Text.size before ∧ token.place = place.advance before

/-- Some more characters in front do not change that. -/
theorem SpellsIn.append {offset : Nat} {place : Place} {cs : List Char} {token : RuleToken}
    {lexeme : Lexeme} (front : List Char)
    (h : SpellsIn (offset + Text.size front) (place.advance front) cs token lexeme) :
    SpellsIn offset place (front ++ cs) token lexeme := by
  obtain ⟨before, after, rfl, hstart, hplace⟩ := h.starts
  refine ⟨h.spells, front ++ before, after, (List.append_assoc _ _ _).symm, ?_, ?_⟩
  · rw [hstart, Text.size_append, Nat.add_assoc]
  · rw [hplace, Place.advance, Place.advance, Place.advance, List.foldl_append]

/-- Of two lists related one by one, the second has no member that none of the first is related
to. -/
theorem exists_mem_of_forall₂ {α β : Type} {R : α → β → Prop} {as : List α} {bs : List β}
    (h : List.Forall₂ R as bs) {b : β} (hb : b ∈ bs) : ∃ a ∈ as, R a b := by
  induction h with
  | nil => exact absurd hb List.not_mem_nil
  | cons hfirst _ ih =>
      rcases List.mem_cons.1 hb with rfl | hrest
      · exact ⟨_, List.mem_cons_self, hfirst⟩
      · obtain ⟨a, ha, hab⟩ := ih hrest
        exact ⟨a, List.mem_cons_of_mem _ ha, hab⟩

/-! ## One token -/

theorem singleKind?_of_singleGlyph? {c : Char} {glyph : Glyph} (h : singleGlyph? c = some glyph) :
    singleKind? c = some glyph.kind ∧ glyph.text = String.ofList [c] := by
  unfold singleGlyph? at h
  repeat' split at h
  all_goals simp_all
  all_goals subst h; exact ⟨by decide, rfl⟩

/-- What the image of a literal is read from is a closed literal, and stands for that image. -/
theorem closeLiteral_of_readImage {cs image taken rest : List Char}
    (h : readImage cs = .ok (image, taken, rest)) :
    closeLiteral cs = some (taken, rest) ∧ taken ≠ [] ∧ unescape taken.dropLast = image := by
  fun_induction readImage cs generalizing image taken with
  | case1 => cases h
  | case2 => cases h
  | case3 c cs _ ih =>
      cases hr : readImage cs with
      | error e => rw [hr] at h; cases h
      | ok r =>
          obtain ⟨i, t, r⟩ := r
          rw [hr] at h
          obtain ⟨rfl, rfl, rfl⟩ := by simpa [Except.map] using h
          obtain ⟨hclose, hne, himage⟩ := ih hr
          refine ⟨by simp [closeLiteral, hclose], by simp, ?_⟩
          rw [List.dropLast_cons_of_ne_nil (by simp), List.dropLast_cons_of_ne_nil hne, unescape,
            himage]
  | case4 => cases h
  | case5 cs h1 h2 =>
      obtain ⟨rfl, rfl, rfl⟩ := by simpa using h
      exact ⟨by simp [closeLiteral], by simp, rfl⟩
  | case6 c cs h1 h2 hquote ih =>
      cases hr : readImage cs with
      | error e => rw [hr] at h; cases h
      | ok r =>
          obtain ⟨i, t, r⟩ := r
          rw [hr] at h
          obtain ⟨rfl, rfl, rfl⟩ := by simpa [Except.map] using h
          obtain ⟨hclose, hne, himage⟩ := ih hr
          -- A backslash here would be the last character, or have one behind it.
          have hescape : c ≠ '\\' := by
            rintro rfl
            cases cs with
            | nil => exact h1 rfl rfl
            | cons d ds => exact h2 d ds rfl rfl
          refine ⟨?_, by simp, ?_⟩
          · rw [closeLiteral, if_neg hquote, hclose]
            · rfl
            · exact fun hc => absurd hc hescape
            · exact fun _ _ hc => absurd hc hescape
          · rw [List.dropLast_cons_of_ne_nil hne, unescape, himage]
            · exact fun hc => absurd hc hescape
            · exact fun _ _ hc => absurd hc hescape

/-- The characters that a token starts with. -/
theorem readGlyph_start {c : Char} {cs : List Char} {r : Glyph × List Char × List Char}
    (h : readGlyph c cs = .ok r) :
    (∃ glyph, singleGlyph? c = some glyph) ∨ c = '\x27' ∨ isNameChar c = true := by
  unfold readGlyph at h
  split at h
  · exact Or.inl ⟨_, by assumption⟩
  split at h
  · exact Or.inr (Or.inl (by assumption))
  split at h
  · exact Or.inr (Or.inr (by assumption))
  split at h <;> cases h

/-- No token starts with a digit or with white space. -/
theorem not_isDigit_not_isBlank_of_readGlyph {c : Char} {cs : List Char}
    {r : Glyph × List Char × List Char} (h : readGlyph c cs = .ok r) :
    c.isDigit = false ∧ Text.isBlank c = false := by
  rcases readGlyph_start h with ⟨glyph, hsingle⟩ | rfl | hname
  · unfold singleGlyph? at hsingle
    repeat' split at hsingle
    all_goals simp_all
    all_goals decide
  · exact ⟨by decide, by decide⟩
  · have hstart : isIdentStart c = true := hname
    have hc := toNat_of_isIdentStart hstart
    refine ⟨?_, not_isBlank_of_isIdentStart hstart⟩
    rw [Bool.eq_false_iff]
    intro hdigit
    simp only [Char.isDigit, Bool.and_eq_true, decide_eq_true_eq] at hdigit
    have : c.toNat ≤ 57 := hdigit.2
    omega

theorem isBlank_of_isNotationBlank {c : Char} (h : isNotationBlank c = true) :
    Text.isBlank c = true := by
  simp only [isNotationBlank, Bool.or_eq_true, beq_iff_eq] at h
  rcases h with (rfl | rfl) | rfl <;> decide

/-- A text that starts with a digit is not in the notation. -/
theorem not_isDigit_of_ruleTokensFrom {place : Place} {c : Char} {cs : List Char}
    {tokens : List RuleToken} (h : ruleTokensFrom place (c :: cs) = .ok tokens) :
    c.isDigit = false := by
  rw [ruleTokensFrom] at h
  split at h
  · rename_i hblank
    simp only [isNotationBlank, Bool.or_eq_true, beq_iff_eq] at hblank
    rcases hblank with (rfl | rfl) | rfl <;> decide
  split at h
  · rename_i hslash
    rw [hslash.1]
    decide
  split at h
  · cases h
  · rename_i hglyph
    exact (not_isDigit_not_isBlank_of_readGlyph hglyph).1

/-- A name ends where the notation ends it if no digit follows. -/
theorem takeWhile_isIdentRest {cs : List Char}
    (h : ∀ d ds, cs.dropWhile isNameChar = d :: ds → d.isDigit = false) :
    cs.takeWhile isIdentRest = cs.takeWhile isNameChar ∧
      cs.dropWhile isIdentRest = cs.dropWhile isNameChar := by
  induction cs with
  | nil => exact ⟨rfl, rfl⟩
  | cons c cs ih =>
      by_cases hc : isNameChar c = true
      · have hrest : isIdentRest c = true := by
          simp only [isNameChar, isIdentRest, Char.isAlphanum, Bool.or_eq_true] at hc ⊢
          exact hc.imp_left Or.inl
        rw [List.dropWhile_cons_of_pos hc] at h
        obtain ⟨htake, hdrop⟩ := ih h
        rw [List.takeWhile_cons_of_pos hc, List.takeWhile_cons_of_pos hrest,
          List.dropWhile_cons_of_pos hc, List.dropWhile_cons_of_pos hrest, htake, hdrop]
        exact ⟨rfl, rfl⟩
      · -- The character that ends the name is no digit, so it ends an identifier as well.
        have hdigit : c.isDigit = false := h c cs (List.dropWhile_cons_of_neg hc)
        have hrest : ¬ isIdentRest c = true := by
          simp only [isNameChar, isIdentRest, Char.isAlphanum, Bool.or_eq_true, hdigit,
            Bool.false_eq_true, or_false] at hc ⊢
          exact hc
        rw [List.takeWhile_cons_of_neg hc, List.takeWhile_cons_of_neg hrest,
          List.dropWhile_cons_of_neg hc, List.dropWhile_cons_of_neg hrest]
        exact ⟨rfl, rfl⟩

/-- What the notation reads as a token is munched as the lexeme that the token is. -/
theorem munch_of_readGlyph {c : Char} {cs taken rest : List Char} {glyph : Glyph}
    (h : readGlyph c cs = .ok (glyph, taken, rest)) (hcomment : ¬ (c = '/' ∧ cs.head? = some '/'))
    (hrest : ∀ d ds, rest = d :: ds → d.isDigit = false) :
    munch (c :: cs) = .token glyph.kind taken rest ∧
      ∀ span, (RawToken.mk glyph.kind span taken).lexeme? = some (glyph.lexeme span) := by
  unfold readGlyph at h
  split at h
  · -- A token of one character.
    rename_i single hsingle
    obtain ⟨rfl, rfl, rfl⟩ := by simpa using h
    obtain ⟨hkind, htext⟩ := singleKind?_of_singleGlyph? hsingle
    refine ⟨by simp [munch, hkind], fun span => ?_⟩
    unfold singleGlyph? at hsingle
    repeat' split at hsingle
    all_goals simp_all
    all_goals subst hsingle; rfl
  rename_i hsingle
  have hkind : singleKind? c = none := by
    unfold singleGlyph? at hsingle
    unfold singleKind?
    repeat' split at hsingle
    all_goals simp_all
  split at h
  · -- A literal is closed where its image ends.
    rename_i hquote
    subst hquote
    cases hr : readImage cs with
    | error e => rw [hr] at h; cases h
    | ok r =>
        obtain ⟨image, body, after⟩ := r
        rw [hr] at h
        obtain ⟨rfl, rfl, rfl⟩ := by simpa [Except.map] using h
        obtain ⟨hclose, hne, himage⟩ := closeLiteral_of_readImage hr
        refine ⟨by simp [munch, hkind, hclose, Glyph.kind], fun span => ?_⟩
        simp [RawToken.lexeme?, Glyph.kind, Glyph.lexeme, Glyph.text, literalImage, himage]
  split at h
  · -- A name is an identifier, and no digit follows that would go on with one.
    rename_i hquote hname
    simp only [Except.ok.injEq, Prod.mk.injEq] at h
    obtain ⟨rfl, rfl, rfl⟩ := h
    obtain ⟨htake, hdrop⟩ := takeWhile_isIdentRest hrest
    have hstart : isIdentStart c = true := hname
    refine ⟨by simp [munch, hkind, hcomment, hquote, hstart, htake, hdrop, Glyph.kind],
      fun span => rfl⟩
  split at h <;> cases h

/-! ## All tokens of a text -/

/-- The stream of a text in the notation gives the tokens of the notation, apart from comments. -/
theorem drain_of_ruleTokensFrom {place : Place} {cs : List Char} {tokens : List RuleToken}
    (h : ruleTokensFrom place cs = .ok tokens) (offset : Nat) (span : Span)
    (slice : List Char) :
    ∃ raw, LexStream.drain ⟨offset, cs, span, slice⟩ = .ok raw ∧
      List.Forall₂ (SpellsIn offset place cs) tokens (raw.filterMap RawToken.lexeme?) := by
  fun_induction ruleTokensFrom place cs generalizing tokens offset span slice with
  | case1 place =>
      obtain rfl : [] = tokens := by simpa using h
      refine ⟨[], ?_, List.Forall₂.nil⟩
      rw [LexStream.drain_eq]
      simp [LexStream.next, munch]
  | case2 place c cs hblank ih =>
      rw [LexStream.drain_blank (isBlank_of_isNotationBlank hblank)]
      obtain ⟨raw, hraw, hspells⟩ := ih h (offset + c.utf8Size) span slice
      exact ⟨raw, hraw, hspells.imp fun _ _ => SpellsIn.append [c]⟩
  | case3 place c cs hblank hcomment ih =>
      -- A comment is a token of the stream, but no lexeme.
      obtain ⟨raw, hraw, hspells⟩ := ih h
        (offset + Text.size (c :: cs.takeWhile (· != '\n')))
        ⟨offset, offset + Text.size (c :: cs.takeWhile (· != '\n'))⟩
        (c :: cs.takeWhile (· != '\n'))
      have hmunch : munch (c :: cs) =
          .token .comment (c :: cs.takeWhile (· != '\n')) (cs.dropWhile (· != '\n')) := by
        obtain ⟨rfl, hhead⟩ := hcomment
        simp [munch, hhead, show singleKind? '/' = none from by decide]
      have hc : Text.isBlank c = false := by
        rw [hcomment.1]
        decide
      rw [LexStream.drain_token hc hmunch, hraw]
      refine ⟨_, rfl, ?_⟩
      rw [List.filterMap_cons_none rfl]
      rw [← munch_token_append hmunch]
      exact hspells.imp fun _ _ => SpellsIn.append (c :: cs.takeWhile (· != '\n'))
  | case4 => cases h
  | case5 place c cs hblank hcomment glyph taken rest hglyph ih =>
      cases htokens : ruleTokensFrom (place.advance taken) rest with
      | error e => rw [htokens] at h; cases h
      | ok others =>
          rw [htokens] at h
          obtain rfl : ⟨glyph, place⟩ :: others = tokens := Except.ok.inj h
          -- The rest is in the notation as well, which has no token that starts with a digit.
          have hdigit : ∀ d ds, rest = d :: ds → d.isDigit = false := by
            rintro d ds rfl
            exact not_isDigit_of_ruleTokensFrom htokens
          obtain ⟨hmunch, hlexeme⟩ := munch_of_readGlyph hglyph hcomment hdigit
          obtain ⟨raw, hraw, hspells⟩ := ih htokens (offset + Text.size taken)
            ⟨offset, offset + Text.size taken⟩ taken
          rw [LexStream.drain_token (not_isDigit_not_isBlank_of_readGlyph hglyph).2 hmunch, hraw]
          refine ⟨_, rfl, ?_⟩
          rw [List.filterMap_cons_some (hlexeme _), ← readGlyph_append hglyph]
          exact .cons ⟨rfl, [], _, rfl, rfl, rfl⟩ (hspells.imp fun _ _ => SpellsIn.append taken)

/-- What the notation cuts into tokens, the lexer cuts into lexemes, which are the tokens where
these start. -/
theorem tokenize_spellsIn {text : String} {tokens : List RuleToken}
    (h : ruleTokens text = .ok tokens) :
    ∃ lexemes, tokenize text = .ok lexemes ∧
      List.Forall₂ (SpellsIn 0 Place.origin text.toList) tokens lexemes.lexemes := by
  obtain ⟨raw, hraw, hspells⟩ := drain_of_ruleTokensFrom h 0 Span.zero []
  refine ⟨⟨raw.filterMap RawToken.lexeme?, raw.filterMap RawToken.comment?⟩, ?_, hspells⟩
  rw [tokenize, LexStream.ofList, hraw]
  rfl

theorem tokenize_of_ruleTokens {text : String} {tokens : List RuleToken}
    (h : ruleTokens text = .ok tokens) :
    ∃ lexemes, tokenize text = .ok lexemes ∧ List.Forall₂ Spells tokens lexemes.lexemes := by
  obtain ⟨lexemes, htokenize, hspells⟩ := tokenize_spellsIn h
  exact ⟨lexemes, htokenize, hspells.imp fun _ _ => SpellsIn.spells⟩

/-- **The two lexers agree**: what the notation cuts into tokens, the lexer cuts into lexemes, and
each lexeme is the token in its place, of the same kind and with the same text. Comments are no
lexemes, and hide none. -/
theorem ruleTokens_agree {text : String} {tokens : List RuleToken}
    (h : ruleTokens text = .ok tokens) : ∃ lexemes, tokenize text = .ok lexemes ∧
      List.Forall₂ (SpellsIn 0 Place.origin text.toList) tokens lexemes.lexemes ∧
      ∀ comment ∈ lexemes.comments, ∀ lexeme ∈ lexemes.lexemes,
        comment.span.stop ≤ lexeme.span.start ∨ lexeme.span.stop ≤ comment.span.start := by
  obtain ⟨lexemes, htokenize, hspells⟩ := tokenize_spellsIn h
  exact ⟨lexemes, htokenize, hspells, apart_of_tokenize htokenize⟩

/-- A literal with both escapes and two slashes in it, and a comment with a carriage return at its
end. -/
theorem ruleTokens_agree_escaped : ∃ lexemes,
    tokenize "A_='\\'\\\\//'//é\r\n*" = .ok lexemes ∧
    List.Forall₂ (SpellsIn 0 Place.origin "A_='\\'\\\\//'//é\r\n*".toList)
      [⟨.ident "A_", ⟨0, 0⟩⟩, ⟨.eq, ⟨0, 2⟩⟩, ⟨.literal "'\\//", ⟨0, 3⟩⟩, ⟨.star, ⟨1, 0⟩⟩]
      lexemes.lexemes ∧
    ∀ comment ∈ lexemes.comments, ∀ lexeme ∈ lexemes.lexemes,
      comment.span.stop ≤ lexeme.span.start ∨ lexeme.span.stop ≤ comment.span.start := by
  have htokens : ruleTokens "A_='\\'\\\\//'//é\r\n*" = .ok [⟨.ident "A_", ⟨0, 0⟩⟩, ⟨.eq, ⟨0, 2⟩⟩,
      ⟨.literal "'\\//", ⟨0, 3⟩⟩, ⟨.star, ⟨1, 0⟩⟩] := by cbv
  exact ruleTokens_agree htokens

end TreeSmith

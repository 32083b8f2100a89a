import TreeSmith.Grammar.Display
import TreeSmith.Proofs.Lexical.Agreement

/-!
# TreeSmith.Proofs.Display.Glyphs

**What a rendered grammar is cut into.** The tokens of a rendered part are known without lexing
it: they are its `glyphs`, which follow the rendering constructor by constructor
(`cutInto_part`). This holds of every part that the notation can express at all (`Printable`), by
whomever it was made.

The one thing to be careful about is a name, which takes all name characters that follow it. What
is rendered behind a part is therefore required to start with none.
-/

namespace TreeSmith

/-! ## Cutting characters into tokens -/

/-- Wherever the characters start, they are cut into tokens that are these glyphs. -/
def CutInto (cs : List Char) (glyphs : List Glyph) : Prop :=
  ∀ place, ∃ tokens, ruleTokensFrom place cs = .ok tokens ∧ tokens.map RuleToken.glyph = glyphs

/-- No character comes first that would go on with a name. -/
def EndsName (cs : List Char) : Prop :=
  ∀ c ∈ cs.head?, isNameChar c = false

theorem EndsName.cons {c : Char} (h : isNameChar c = false) (cs : List Char) :
    EndsName (c :: cs) := by
  rintro _ ⟨⟩
  exact h

/-- A name as the notation has it. -/
def IsName (name : String) : Prop :=
  name.toList ≠ [] ∧ ∀ c ∈ name.toList, isNameChar c = true

theorem isName_of_readGlyph {c : Char} {cs taken rest : List Char} {name : String}
    (h : readGlyph c cs = .ok (.ident name, taken, rest)) : IsName name := by
  unfold readGlyph at h
  split at h
  · rename_i single hsingle
    obtain ⟨rfl, -⟩ := Prod.mk.inj (Except.ok.inj h)
    unfold singleGlyph? at hsingle
    repeat' split at hsingle
    all_goals cases hsingle
  split at h
  · cases hread : readImage cs with
    | error e => rw [hread] at h; cases h
    | ok r => rw [hread] at h; cases h
  split at h
  · rename_i hname
    obtain ⟨hident, -⟩ := Prod.mk.inj (Except.ok.inj h)
    rw [← Glyph.ident.inj hident, IsName, String.toList_ofList]
    refine ⟨List.cons_ne_nil _ _, List.forall_mem_cons.2 ⟨hname, fun d hd => ?_⟩⟩
    exact List.all_eq_true.1 List.all_takeWhile d hd
  split at h <;> cases h

/-- The names among the tokens of a text are names. -/
theorem isName_of_ruleTokensFrom {place : Place} {cs : List Char} {tokens : List RuleToken}
    (h : ruleTokensFrom place cs = .ok tokens) :
    ∀ token ∈ tokens, ∀ name, token.glyph = .ident name → IsName name := by
  fun_induction ruleTokensFrom place cs generalizing tokens with
  | case1 place =>
      obtain rfl := Except.ok.inj h
      exact List.forall_mem_nil _
  | case2 place c cs _ ih => exact ih h
  | case3 place c cs _ _ ih => exact ih h
  | case4 => cases h
  | case5 place c cs hblank hcomment glyph taken rest hglyph ih =>
      cases hothers : ruleTokensFrom (place.advance taken) rest with
      | error e => rw [hothers] at h; cases h
      | ok others =>
          rw [hothers] at h
          obtain rfl : ⟨glyph, place⟩ :: others = tokens := Except.ok.inj h
          refine List.forall_mem_cons.2 ⟨?_, ih hothers⟩
          rintro name rfl
          exact isName_of_readGlyph hglyph

/-- What a text is cut into, read off its first character. -/
theorem ruleTokensFrom_cons (place : Place) (c : Char) (cs : List Char) :
    ruleTokensFrom place (c :: cs) =
      if isNotationBlank c then ruleTokensFrom (place.step c) cs
      else if c = '/' ∧ cs.head? = some '/' then
        ruleTokensFrom ((place.step c).advance (cs.takeWhile (· != '\n')))
          (cs.dropWhile (· != '\n'))
      else match readGlyph c cs with
        | .error fault => .error ⟨fault, some place⟩
        | .ok (glyph, taken, rest) =>
          (ruleTokensFrom (place.advance taken) rest).map (⟨glyph, place⟩ :: ·) := by
  rw [ruleTokensFrom]
  split
  · rfl
  split
  · rfl
  split
  · rename_i hglyph
    rw [hglyph]
  · rename_i hglyph
    rw [hglyph]
    simp only
    cases ruleTokensFrom _ _ <;> rfl

namespace CutInto

variable {cs rest taken : List Char} {glyphs : List Glyph} {c : Char} {glyph : Glyph}

theorem nil : CutInto [] [] := by
  intro place
  exact ⟨[], by rw [ruleTokensFrom], rfl⟩

theorem blank (hc : isNotationBlank c = true) (h : CutInto cs glyphs) :
    CutInto (c :: cs) glyphs := by
  intro place
  rw [ruleTokensFrom_cons, if_pos hc]
  exact h _

/-- A token that is read comes first. -/
theorem token (hglyph : readGlyph c cs = .ok (glyph, taken, rest)) (h : CutInto rest glyphs) :
    CutInto (c :: cs) (glyph :: glyphs) := by
  intro place
  -- Neither white space nor a comment starts as a token does.
  have hblank : ¬ isNotationBlank c = true := by
    intro hc
    have hno := (not_isDigit_not_isBlank_of_readGlyph hglyph).2
    rw [isBlank_of_isNotationBlank hc] at hno
    cases hno
  have hcomment : ¬ (c = '/' ∧ cs.head? = some '/') := by
    rintro ⟨rfl, -⟩
    rcases readGlyph_start hglyph with ⟨single, hsingle⟩ | hquote | hname
    · exact absurd hsingle (by simp [singleGlyph?])
    · exact absurd hquote (by decide)
    · exact absurd hname (by decide)
  obtain ⟨tokens, htokens, hmap⟩ := h (place.advance taken)
  refine ⟨⟨glyph, place⟩ :: tokens, ?_, congrArg (glyph :: ·) hmap⟩
  rw [ruleTokensFrom_cons, if_neg hblank, if_neg hcomment, hglyph]
  simp only
  rw [htokens]
  rfl

theorem single (hc : singleGlyph? c = some glyph) (h : CutInto cs glyphs) :
    CutInto (c :: cs) (glyph :: glyphs) := by
  have hglyph : readGlyph c cs = .ok (glyph, [c], cs) := by
    unfold readGlyph
    rw [hc]
  exact token hglyph h

theorem name {name : String} (hname : IsName name) (hends : EndsName rest)
    (h : CutInto rest glyphs) : CutInto (name.toList ++ rest) (.ident name :: glyphs) := by
  obtain ⟨hne, hall⟩ := hname
  obtain ⟨first, more, hchars⟩ := List.exists_cons_of_ne_nil hne
  rw [hchars] at hall ⊢
  obtain ⟨hfirst, hmore⟩ := List.forall_mem_cons.1 hall
  -- What follows starts with no name character, so the name is all that is taken.
  obtain ⟨htake, hdrop⟩ := takeWhile_dropWhile_append hmore hends
  have hsingle : singleGlyph? first = none := by
    have hnat := toNat_of_isIdentStart hfirst
    unfold singleGlyph?
    repeat' split
    all_goals first | rfl | (subst_vars; revert hnat; decide)
  have hquote : first ≠ '\x27' := by
    rintro rfl
    exact absurd hfirst (by decide)
  have hglyph : readGlyph first (more ++ rest) = .ok (.ident name, first :: more, rest) := by
    unfold readGlyph
    rw [hsingle]
    simp only
    rw [if_neg hquote, if_pos hfirst, htake, hdrop, ← hchars, String.ofList_toList]
  exact token hglyph h

end CutInto

/-! ## Quoted images -/

theorem escapeQuotes_cons (c : Char) (cs : List Char) :
    escapeQuotes (c :: cs) = (if c = '\x27' then ['\\', c] else [c]) ++ escapeQuotes cs := by
  simp [escapeQuotes]

/-- An image without backslashes is read back from its escaped form. -/
theorem readImage_escapeQuotes {image : List Char} (himage : '\\' ∉ image) (rest : List Char) :
    readImage (escapeQuotes image ++ '\x27' :: rest) =
      .ok (image, escapeQuotes image ++ ['\x27'], rest) := by
  induction image with
  | nil =>
      show readImage ('\x27' :: rest) = .ok ([], ['\x27'], rest)
      rw [readImage]
      · rfl
      · exact nofun
      · exact nofun
  | cons c image ih =>
      rw [List.mem_cons, not_or] at himage
      obtain ⟨hescape, himage⟩ := himage
      by_cases hquote : c = '\x27'
      · simp only [escapeQuotes_cons, if_pos hquote, List.cons_append, List.nil_append]
        rw [readImage, if_pos (Or.inr hquote), ih himage]
        rfl
      · simp only [escapeQuotes_cons, if_neg hquote, List.cons_append, List.nil_append]
        rw [readImage, if_neg hquote, ih himage]
        · rfl
        · exact fun hc => absurd hc.symm hescape
        · exact fun _ _ hc => absurd hc.symm hescape

theorem toList_quoteImage (image : String) :
    (quoteImage image).toList = '\x27' :: (escapeQuotes image.toList ++ ['\x27']) := by
  simp [quoteImage]

theorem CutInto.literal {image : String} (himage : '\\' ∉ image.toList) {rest : List Char}
    {glyphs : List Glyph} (h : CutInto rest glyphs) :
    CutInto ((quoteImage image).toList ++ rest) (.literal image :: glyphs) := by
  have hglyph : readGlyph '\x27' (escapeQuotes image.toList ++ '\x27' :: rest) =
      .ok (.literal image, '\x27' :: (escapeQuotes image.toList ++ ['\x27']), rest) := by
    unfold readGlyph
    rw [show singleGlyph? '\x27' = none from rfl]
    simp only [if_true]
    rw [readImage_escapeQuotes himage]
    simp [Except.map]
  rw [toList_quoteImage, List.cons_append, List.append_assoc]
  exact CutInto.token hglyph h

/-! ## Parts -/

mutual

/-- The part can be written in the notation: its names are names, its images have no backslash,
it has no code, and nothing occurs at least once. -/
def Part.Printable : Part → Prop
  | .terminal _ image code => '\\' ∉ image.toList ∧ code = none
  | .nonTerminal _ name code => IsName name ∧ code = none
  | .composite _ times choices code => times ≠ .oneOrMore ∧ code = none ∧ ChoicesPrintable choices

/-- All parts of a sequence can be written in the notation. -/
def SequencePrintable : List Part → Prop
  | [] => True
  | part :: rest => part.Printable ∧ SequencePrintable rest

/-- All parts of alternatives can be written in the notation. -/
def ChoicesPrintable : List (List Part) → Prop
  | [] => True
  | sequence :: rest => SequencePrintable sequence ∧ ChoicesPrintable rest

end

/-- The token of an operator, if there is one in the notation. -/
def Multiplicity.glyphs : Multiplicity → List Glyph
  | .once => []
  | .optional => [.question]
  | .zeroOrMore => [.star]
  | .oneOrMore => []

mutual

/-- The tokens of a rendered part. -/
def Part.glyphs : Part → List Glyph
  | .terminal _ image _ => [.literal image]
  | .nonTerminal _ name _ => [.ident name]
  | .composite _ times choices _ =>
    (if times != .once && isSingleAtom choices then choicesGlyphs choices
      else .openParen :: (choicesGlyphs choices ++ [.closeParen])) ++ times.glyphs

/-- The tokens of a rendered sequence. -/
def sequenceGlyphs : List Part → List Glyph
  | [] => []
  | part :: rest => part.glyphs ++ sequenceGlyphs rest

/-- The tokens of rendered alternatives. -/
def choicesGlyphs : List (List Part) → List Glyph
  | [] => []
  | [sequence] => sequenceGlyphs sequence
  | sequence :: rest => sequenceGlyphs sequence ++ .pipe :: choicesGlyphs rest

end

/-- An operator is rendered as its token. -/
theorem CutInto.operator {times : Multiplicity} (htimes : times ≠ .oneOrMore) {rest : List Char}
    {glyphs : List Glyph} (h : CutInto rest glyphs) :
    CutInto (times.operator.toList ++ rest) (times.glyphs ++ glyphs) := by
  cases times with
  | once => exact h
  | optional => exact CutInto.single rfl h
  | zeroOrMore => exact CutInto.single rfl h
  | oneOrMore => exact absurd rfl htimes

theorem endsName_operator {times : Multiplicity} {rest : List Char} (h : EndsName rest) :
    EndsName (times.operator.toList ++ rest) := by
  cases times with
  | once => exact h
  | optional => exact EndsName.cons rfl rest
  | zeroOrMore => exact EndsName.cons rfl rest
  | oneOrMore => exact EndsName.cons rfl rest

mutual

/-- **A rendered part is cut into its glyphs.** -/
theorem cutInto_part : ∀ (part : Part), part.Printable → ∀ {rest : List Char}
    {glyphs : List Glyph}, EndsName rest → CutInto rest glyphs →
    CutInto (part.render.toList ++ rest) (part.glyphs ++ glyphs)
  | .terminal _ image code, hprintable, rest, glyphs, _, h => by
      obtain ⟨himage, rfl⟩ := hprintable
      rw [Part.render, codeSuffix, String.append_empty]
      exact CutInto.literal himage h
  | .nonTerminal _ name code, hprintable, rest, glyphs, hends, h => by
      obtain ⟨hname, rfl⟩ := hprintable
      rw [Part.render, codeSuffix, String.append_empty]
      exact CutInto.name hname hends h
  | .composite _ times choices code, hprintable, rest, glyphs, hends, h => by
      obtain ⟨htimes, rfl, hchoices⟩ := hprintable
      have hoperator := CutInto.operator htimes h
      rw [Part.render, Part.glyphs, codeSuffix, String.append_empty]
      by_cases hbare : (times != .once && isSingleAtom choices) = true
      · simp only [hbare, if_true]
        rw [String.toList_append, List.append_assoc, List.append_assoc]
        -- The operator follows a single atom without parentheses.
        exact cutInto_choices choices hchoices (endsName_operator hends) hoperator
      · have hclose : CutInto (')' :: (times.operator.toList ++ rest))
            (.closeParen :: (times.glyphs ++ glyphs)) := CutInto.single rfl hoperator
        have hends : EndsName (')' :: (times.operator.toList ++ rest)) := EndsName.cons rfl _
        have hopen := CutInto.single (c := '(') rfl (cutInto_choices choices hchoices hends hclose)
        simp only [hbare]
        simpa using hopen

theorem cutInto_sequence : ∀ (sequence : List Part), SequencePrintable sequence →
    ∀ {rest : List Char} {glyphs : List Glyph}, EndsName rest → CutInto rest glyphs →
    CutInto ((renderSequence sequence).toList ++ rest) (sequenceGlyphs sequence ++ glyphs)
  | [], _, rest, glyphs, _, h => h
  | [part], hprintable, rest, glyphs, hends, h => by
      rw [renderSequence, sequenceGlyphs, sequenceGlyphs, List.append_nil]
      exact cutInto_part part hprintable.1 hends h
  | part :: next :: more, hprintable, rest, glyphs, hends, h => by
      have hmore := cutInto_sequence (next :: more) hprintable.2 hends h
      have hblank := CutInto.blank (c := ' ') rfl hmore
      have hpart := cutInto_part part hprintable.1 (EndsName.cons rfl _) hblank
      rw [renderSequence, sequenceGlyphs, String.toList_append, String.toList_append,
        List.append_assoc, List.append_assoc, List.append_assoc]
      · exact hpart
      · exact nofun

theorem cutInto_choices : ∀ (choices : List (List Part)), ChoicesPrintable choices →
    ∀ {rest : List Char} {glyphs : List Glyph}, EndsName rest → CutInto rest glyphs →
    CutInto ((renderChoices choices).toList ++ rest) (choicesGlyphs choices ++ glyphs)
  | [], _, rest, glyphs, _, h => h
  | [sequence], hprintable, rest, glyphs, hends, h => by
      rw [renderChoices, choicesGlyphs]
      exact cutInto_sequence sequence hprintable.1 hends h
  | sequence :: next :: more, hprintable, rest, glyphs, hends, h => by
      have hmore := cutInto_choices (next :: more) hprintable.2 hends h
      have hbar := CutInto.blank (c := ' ') rfl
        (CutInto.single (c := '|') rfl (CutInto.blank (c := ' ') rfl hmore))
      have hsequence := cutInto_sequence sequence hprintable.1 (EndsName.cons rfl _) hbar
      rw [renderChoices, choicesGlyphs, String.toList_append, String.toList_append,
        List.append_assoc, List.append_assoc, List.append_assoc]
      · exact hsequence
      · exact nofun
      · exact nofun

end

/-! ## Productions -/

/-- The production can be written in the notation. -/
def Production.Printable (production : Production) : Prop :=
  IsName production.name ∧
    ∃ choices, production.body = .choices choices ∧ ChoicesPrintable choices

/-- The tokens of a rendered production. -/
def Production.glyphs (production : Production) : List Glyph :=
  .ident production.name :: .eq ::
    match production.body with
    | .choices choices => choicesGlyphs choices
    | .code _ => []

theorem CutInto.production {production : Production} (hprintable : production.Printable)
    {rest : List Char} {glyphs : List Glyph} (h : CutInto rest glyphs) :
    CutInto ((production.render ++ "\n").toList ++ rest) (production.glyphs ++ glyphs) := by
  obtain ⟨hname, choices, hbody, hchoices⟩ := hprintable
  have hline := CutInto.blank (c := '\n') rfl h
  have hright := CutInto.blank (c := ' ') rfl
    (cutInto_choices choices hchoices (EndsName.cons rfl rest) hline)
  have heq := CutInto.blank (c := ' ') rfl (CutInto.single (c := '=') rfl hright)
  have hall := CutInto.name hname (EndsName.cons rfl _) heq
  rw [Production.render, Production.glyphs, hbody]
  simpa using hall

/-- **A rendered grammar is cut into the glyphs of its productions.** -/
theorem cutInto_render {productions : List Production}
    (h : ∀ production ∈ productions, production.Printable) (comments : List Comment) :
    CutInto (Grammar.render ⟨productions, comments⟩).toList
      (productions.flatMap Production.glyphs) := by
  rw [Grammar.render]
  induction productions with
  | nil => exact CutInto.nil
  | cons production others ih =>
      obtain ⟨hproduction, hothers⟩ := List.forall_mem_cons.1 h
      rw [List.map_cons, String.join_cons, String.toList_append, List.flatMap_cons]
      exact CutInto.production hproduction (ih hothers)

end TreeSmith

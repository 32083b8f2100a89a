import TreeSmith.Proofs.Display.Glyphs
import TreeSmith.Proofs.Lexical.Progress

/-!
# TreeSmith.Proofs.Display.Literals

**A rendered image that is read again.** Only quotes are escaped when an image is rendered, while a
backslash in a literal takes the next character with it, whatever that is. So a backslash in an
image takes the character behind it when the image is read again. If that is a quote, or the image
ends there, the literal does not end with the rendered text; otherwise it does, and stands for the
image without these backslashes (`isLiteral_render_iff`). An image with a backslash is never read
back.
-/

namespace TreeSmith

/-! ## Texts that are one literal -/

/-- The text is one literal, which stands for an image: it is read first and reaches to the end of
the text, every further call finds the end, and `tokenize` gives the image. -/
structure IsLiteral (text image : String) : Prop where
  first : (LexStream.ofList text.toList).next =
    (.ok .literal, ⟨Text.size text.toList, [], ⟨0, Text.size text.toList⟩, text.toList⟩)
  endOfText : ∀ calls,
    ((LexStream.ofList text.toList).afterCalls (calls + 1)).next.1 = .error .endOfText
  tokenize : tokenize text = .ok ⟨[⟨.literal, ⟨0, Text.size text.toList⟩, image⟩], []⟩

/-- The next call answers with the token that the rest starts with. -/
theorem LexStream.next_of_munched {kind : LexemeKind} {taken rest : List Char}
    (h : Munched kind taken rest) (offset : Nat) (span : Span) (slice : List Char) :
    next ⟨offset, taken ++ rest, span, slice⟩ =
      (.ok kind, ⟨offset + Text.size taken, rest, ⟨offset, offset + Text.size taken⟩, taken⟩) := by
  have hmunch := munch_eq_token_iff.2 ⟨h, rfl⟩
  obtain ⟨c, more, rfl⟩ := List.exists_cons_of_ne_nil h.ne_nil
  exact next_token h.not_isBlank hmunch offset span slice

/-- A text that a literal takes up is one literal, and stands for the image of that. -/
theorem isLiteral_of_munched {text : String} (h : Munched .literal text.toList []) :
    IsLiteral text (String.ofList (literalImage text.toList)) := by
  have hnext := LexStream.next_of_munched h 0 Span.zero []
  rw [List.append_nil, Nat.zero_add] at hnext
  have hend : ∀ span slice,
      LexStream.next ⟨Text.size text.toList, [], span, slice⟩ = (.error .endOfText, _) :=
    fun span slice => rfl
  refine ⟨hnext, fun calls => LexStream.afterCalls_endOfText ?_ calls, ?_⟩
  · rw [LexStream.ofList, hnext, hend]
  · rw [TreeSmith.tokenize, LexStream.drain_eq, LexStream.ofList, hnext]
    dsimp only
    rw [LexStream.drain_eq, hend]
    rfl

theorem isLiteral_iff {text image : String} :
    IsLiteral text image ↔ Munched .literal text.toList [] ∧
      image = String.ofList (literalImage text.toList) := by
  constructor
  · intro h
    have hmunched := (munch_eq_token_iff.1 (LexStream.next_eq_ok h.first).1).1
    have hread := h.tokenize.symm.trans (isLiteral_of_munched hmunched).tokenize
    simp only [Except.ok.injEq, Lexemes.mk.injEq, List.cons.injEq, Lexeme.mk.injEq] at hread
    exact ⟨hmunched, hread.1.1.2.2⟩
  · rintro ⟨hmunched, rfl⟩
    exact isLiteral_of_munched hmunched

/-! ## Backslashes in an image -/

/-- Every backslash has a character behind it to take, and that is no quote. -/
def takesNoQuote : List Char → Bool
  | [] => true
  | ['\\'] => false
  | '\\' :: c :: cs => c != '\x27' && takesNoQuote cs
  | _ :: cs => takesNoQuote cs

theorem not_closedLiteral_nil : ¬ ClosedLiteral [] := by
  intro h
  cases h

theorem closedLiteral_quote_iff {body : List Char} :
    ClosedLiteral ('\x27' :: body) ↔ body = [] := by
  constructor
  · intro h
    cases h with
    | quote => rfl
    | plain _ hquote => exact absurd rfl hquote
  · rintro rfl
    exact .quote

theorem closedLiteral_escaped_iff {c : Char} {body : List Char} :
    ClosedLiteral ('\\' :: c :: body) ↔ ClosedLiteral body := by
  constructor
  · intro h
    cases h with
    | escaped _ hbody => exact hbody
    | plain hescape => exact absurd rfl hescape
  · exact .escaped c

theorem closedLiteral_plain_iff {c : Char} {body : List Char} (hescape : c ≠ '\\')
    (hquote : c ≠ '\x27') : ClosedLiteral (c :: body) ↔ ClosedLiteral body := by
  constructor
  · intro h
    cases h with
    | quote => exact absurd rfl hquote
    | escaped => exact absurd rfl hescape
    | plain _ _ hbody => exact hbody
  · exact .plain hescape hquote

/-- The rendered image closes with its last quote if no backslash takes a quote. -/
theorem closedLiteral_escapeQuotes_iff {image : List Char} :
    ClosedLiteral (escapeQuotes image ++ ['\x27']) ↔ takesNoQuote image = true := by
  fun_induction takesNoQuote image with
  | case1 => simp [escapeQuotes, closedLiteral_quote_iff]
  | case2 => simp [escapeQuotes, closedLiteral_escaped_iff, not_closedLiteral_nil]
  | case3 c cs ih =>
      by_cases hquote : c = '\x27'
      · simp [escapeQuotes_cons, closedLiteral_escaped_iff, closedLiteral_quote_iff, hquote]
      · simp [escapeQuotes_cons, closedLiteral_escaped_iff, hquote, ih]
  | case4 c cs hlast hmore ih =>
      have hescape := ne_backslash hlast hmore
      by_cases hquote : c = '\x27'
      · simp [escapeQuotes_cons, closedLiteral_escaped_iff, hquote, ih]
      · simp [escapeQuotes_cons, closedLiteral_plain_iff hescape hquote, hquote, ih]

/-- A character that is no backslash stands for itself. -/
theorem unescape_plain {c : Char} (hescape : c ≠ '\\') (cs : List Char) :
    unescape (c :: cs) = c :: unescape cs := by
  rw [unescape]
  · exact fun hc => absurd hc hescape
  · exact fun _ _ hc => absurd hc hescape

/-- What is read is the image that was rendered, less the backslashes that take a character. -/
theorem unescape_escapeQuotes {image : List Char} (h : takesNoQuote image = true) :
    unescape (escapeQuotes image) = unescape image := by
  fun_induction takesNoQuote image with
  | case1 => rfl
  | case2 => cases h
  | case3 c cs ih =>
      obtain ⟨hquote, hcs⟩ := Bool.and_eq_true_iff.1 h
      rw [bne_iff_ne] at hquote
      simp [escapeQuotes_cons, hquote, unescape, ih hcs]
  | case4 c cs hlast hmore ih =>
      have hescape := ne_backslash hlast hmore
      rw [unescape_plain hescape, ← ih h, escapeQuotes_cons]
      by_cases hquote : c = '\x27'
      · simp [hquote, unescape]
      · simp [hquote, unescape_plain hescape]

theorem length_unescape_le (image : List Char) : (unescape image).length ≤ image.length := by
  fun_induction unescape image with
  | case1 => exact Nat.le_refl 0
  | case2 => exact Nat.zero_le _
  | case3 c cs ih => exact Nat.le_succ_of_le (Nat.succ_le_succ ih)
  | case4 c cs _ _ ih => exact Nat.succ_le_succ ih

/-- A backslash is lost, whether it takes a character or stands at the end. -/
theorem length_unescape_lt {image : List Char} (h : '\\' ∈ image) :
    (unescape image).length < image.length := by
  fun_induction unescape image with
  | case1 => cases h
  | case2 => exact Nat.zero_lt_one
  | case3 c cs => exact Nat.succ_lt_succ (Nat.lt_succ_of_le (length_unescape_le cs))
  | case4 c cs hlast hmore ih =>
      rcases List.mem_cons.1 h with hc | hcs
      · exact absurd hc.symm (ne_backslash hlast hmore)
      · exact Nat.succ_lt_succ (ih hcs)

theorem unescape_eq_self_iff {image : List Char} : unescape image = image ↔ '\\' ∉ image := by
  constructor
  · intro h hmem
    exact absurd (congrArg List.length h) (Nat.ne_of_lt (length_unescape_lt hmem))
  · intro h
    induction image with
    | nil => rfl
    | cons c image ih =>
        rw [List.mem_cons, not_or] at h
        rw [unescape_plain (Ne.symm h.1), ih h.2]

theorem takesNoQuote_of_not_mem {image : List Char} (h : '\\' ∉ image) :
    takesNoQuote image = true := by
  fun_induction takesNoQuote image with
  | case1 => rfl
  | case2 => simp at h
  | case3 => simp at h
  | case4 c cs _ _ ih => exact ih fun hmem => h (List.mem_cons_of_mem c hmem)

/-! ## Rendered images -/

theorem literalImage_quoteImage (image : String) :
    literalImage (quoteImage image).toList = unescape (escapeQuotes image.toList) := by
  simp [toList_quoteImage, literalImage]

theorem munched_literal_iff {body rest : List Char} :
    Munched .literal ('\x27' :: body) rest ↔ ClosedLiteral body := by
  constructor
  · intro h
    cases h with
    | single hkind => exact absurd rfl (kind_ne_of_singleKind? hkind).2.2
    | literal hbody => exact hbody
  · exact .literal

/-- **What is read of a rendered terminal.** It is one literal exactly if no backslash of the image
takes a quote or stands at the end, and then stands for the image without the backslashes that take
a character. So it is read back exactly if its image has no backslash. -/
theorem isLiteral_render_iff (span : Span) (image : String) :
    (∀ found, IsLiteral (Part.terminal span image none).render found ↔
      takesNoQuote image.toList = true ∧ found = String.ofList (unescape image.toList)) ∧
    (IsLiteral (Part.terminal span image none).render image ↔ '\\' ∉ image.toList) := by
  have hrender : (Part.terminal span image none).render = quoteImage image := by
    rw [Part.render, codeSuffix, String.append_empty]
  have hfound : ∀ found, IsLiteral (quoteImage image) found ↔
      takesNoQuote image.toList = true ∧ found = String.ofList (unescape image.toList) := by
    intro found
    rw [isLiteral_iff, literalImage_quoteImage, toList_quoteImage, munched_literal_iff,
      closedLiteral_escapeQuotes_iff]
    exact and_congr_right fun h => by rw [unescape_escapeQuotes h]
  rw [hrender]
  refine ⟨hfound, (hfound image).trans ⟨fun h => ?_, fun h => ?_⟩⟩
  · have hsame := congrArg String.toList h.2
    rw [String.toList_ofList] at hsame
    exact unescape_eq_self_iff.1 hsame.symm
  · rw [unescape_eq_self_iff.2 h, String.ofList_toList]
    exact ⟨takesNoQuote_of_not_mem h, rfl⟩

/-- The backslash that is the image `\` takes the closing quote, and the one in `a\b` is lost. -/
theorem not_isLiteral_backslash :
    tokenize (Part.terminal Span.zero "\\" none).render = .error (.unterminatedLiteral 0) ∧
    tokenize (Part.terminal Span.zero "a\\b" none).render =
      .ok ⟨[⟨.literal, ⟨0, 5⟩, "ab"⟩], []⟩ ∧
    ¬ IsLiteral (Part.terminal Span.zero "\\" none).render "\\" ∧
    ¬ IsLiteral (Part.terminal Span.zero "a\\b" none).render "a\\b" := by
  have hlast : tokenize (Part.terminal Span.zero "\\" none).render =
      .error (.unterminatedLiteral 0) := by cbv
  have hinside : tokenize (Part.terminal Span.zero "a\\b" none).render =
      .ok ⟨[⟨.literal, ⟨0, 5⟩, "ab"⟩], []⟩ := by cbv
  refine ⟨hlast, hinside, fun h => ?_, fun h => ?_⟩
  · have := hlast.symm.trans h.tokenize
    cases this
  · have := hinside.symm.trans h.tokenize
    simp at this

end TreeSmith

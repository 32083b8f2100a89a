import TreeSmith.Lexeme.Basic
import TreeSmith.Text.Alphabetic
import TreeSmith.Text.Blank

/-!
# TreeSmith.Proofs.Lexical.Munched

**What a token looks like, and what may follow it.** `Munched` says so for each kind of token, with
no reader in it: whatever follows a token of one character or a literal, a comment is only followed
by a line feed, and an identifier by no character that would continue it. It is what `munch` reads
(`munch_eq_token_iff`).
-/

namespace TreeSmith

/-- A literal without its opening quote. A backslash stands before another character, which may be
a quote; any other quote closes the literal. -/
inductive ClosedLiteral : List Char → Prop
  | quote : ClosedLiteral ['\x27']
  | escaped (c : Char) {body : List Char} (hbody : ClosedLiteral body) :
      ClosedLiteral ('\\' :: c :: body)
  | plain {c : Char} {body : List Char} (hescape : c ≠ '\\') (hquote : c ≠ '\x27')
      (hbody : ClosedLiteral body) : ClosedLiteral (c :: body)

/-- Some characters are a token of a kind if these others follow. -/
inductive Munched : LexemeKind → List Char → List Char → Prop
  | single {c : Char} {kind : LexemeKind} {rest : List Char} (hkind : singleKind? c = some kind) :
      Munched kind [c] rest
  | comment {line rest : List Char} (hline : '\n' ∉ line) (hrest : ∀ c ∈ rest.head?, c = '\n') :
      Munched .comment ('/' :: '/' :: line) rest
  | literal {body rest : List Char} (hbody : ClosedLiteral body) :
      Munched .literal ('\x27' :: body) rest
  | ident {c : Char} {more rest : List Char} (hstart : isIdentStart c = true)
      (hmore : ∀ d ∈ more, isIdentRest d = true)
      (hrest : ∀ d ∈ rest.head?, isIdentRest d = false) :
      Munched .ident (c :: more) rest

/-! ## Characters up to the first that does not belong -/

section TakeWhile

variable {p : Char → Bool} {front back : List Char}

theorem forall_mem_takeWhile (cs : List Char) : ∀ c ∈ cs.takeWhile p, p c = true :=
  List.all_eq_true.1 List.all_takeWhile

theorem forall_mem_head?_dropWhile (cs : List Char) :
    ∀ c ∈ (cs.dropWhile p).head?, p c = false := by
  intro c hc
  have := List.head?_dropWhile_not p cs
  rw [Option.mem_def.1 hc] at this
  exact this

/-- Nothing more is taken if what follows does not belong. -/
theorem takeWhile_dropWhile_append (hfront : ∀ c ∈ front, p c = true)
    (hback : ∀ c ∈ back.head?, p c = false) :
    (front ++ back).takeWhile p = front ∧ (front ++ back).dropWhile p = back := by
  rw [List.takeWhile_append_of_pos hfront, List.dropWhile_append_of_pos hfront]
  cases back with
  | nil => exact ⟨List.append_nil _, rfl⟩
  | cons c back =>
      have hc : ¬ p c = true := by simp [hback c rfl]
      rw [List.takeWhile_cons_of_neg hc, List.dropWhile_cons_of_neg hc, List.append_nil]
      exact ⟨rfl, rfl⟩

end TakeWhile

/-! ## Literals -/

/-- What is neither a backslash at the end nor one in front of another character is none. -/
theorem ne_backslash {c : Char} {cs : List Char} (hlast : c = '\\' → cs = [] → False)
    (hmore : ∀ d ds, c = '\\' → cs = d :: ds → False) : c ≠ '\\' := by
  intro hc
  cases cs with
  | nil => exact hlast hc rfl
  | cons d ds => exact hmore d ds hc rfl

theorem closeLiteral_eq_some_iff {cs body rest : List Char} :
    closeLiteral cs = some (body, rest) ↔ ClosedLiteral body ∧ cs = body ++ rest := by
  constructor
  · intro h
    refine ⟨?_, (closeLiteral_append h).symm⟩
    fun_induction closeLiteral cs generalizing body with
    | case1 => cases h
    | case2 => cases h
    | case3 c cs ih =>
        obtain ⟨⟨found, more⟩, hfound, heq⟩ := Option.map_eq_some_iff.1 h
        obtain ⟨rfl, rfl⟩ := Prod.mk.inj heq
        exact .escaped c (ih hfound)
    | case4 cs =>
        obtain ⟨rfl, rfl⟩ := Prod.mk.inj (Option.some.inj h)
        exact .quote
    | case5 c cs hlast hmore hquote ih =>
        obtain ⟨⟨found, more⟩, hfound, heq⟩ := Option.map_eq_some_iff.1 h
        obtain ⟨rfl, rfl⟩ := Prod.mk.inj heq
        exact .plain (ne_backslash hlast hmore) hquote (ih hfound)
  · rintro ⟨hbody, rfl⟩
    induction hbody with
    | quote => simp [closeLiteral]
    | escaped c hbody ih => simp [closeLiteral, ih]
    | plain hescape hquote hbody ih =>
        rw [List.cons_append, closeLiteral, if_neg hquote, ih]
        · rfl
        · exact fun hc => absurd hc hescape
        · exact fun _ _ hc => absurd hc hescape

/-- A literal has its closing quote at the end, and its inside in front of that. -/
theorem ClosedLiteral.exists_inside {body : List Char} (h : ClosedLiteral body) :
    ∃ inside, body = inside ++ ['\x27'] := by
  induction h with
  | quote => exact ⟨[], rfl⟩
  | escaped c _ ih =>
      obtain ⟨inside, rfl⟩ := ih
      exact ⟨'\\' :: c :: inside, rfl⟩
  | @plain c _ _ _ _ ih =>
      obtain ⟨inside, rfl⟩ := ih
      exact ⟨c :: inside, rfl⟩

/-! ## Reading a token -/

theorem singleKind?_ident {c : Char} (h : isIdentStart c = true) :
    singleKind? c = none ∧ c ≠ '/' ∧ c ≠ '\x27' := by
  refine ⟨?_, ?_, ?_⟩
  · unfold singleKind?
    repeat' split
    all_goals first | rfl | (rename_i hc; subst hc; exact absurd h (by decide))
  · rintro rfl
    exact absurd h (by decide)
  · rintro rfl
    exact absurd h (by decide)

/-- What is read is what the relation says. -/
theorem munch_eq_token_iff {cs taken rest : List Char} {kind : LexemeKind} :
    munch cs = .token kind taken rest ↔ Munched kind taken rest ∧ cs = taken ++ rest := by
  constructor
  · intro h
    refine ⟨?_, (munch_token_append h).symm⟩
    cases cs with
    | nil => cases h
    | cons c cs =>
        simp only [munch] at h
        split at h
        · rename_i single hsingle
          obtain ⟨rfl, rfl, rfl⟩ := Munch.token.inj h
          exact .single hsingle
        split at h
        · rename_i hslash
          obtain ⟨rfl, rfl, rfl⟩ := Munch.token.inj h
          obtain ⟨line, rfl⟩ := List.head?_eq_some_iff.1 hslash.2
          rw [hslash.1, List.takeWhile_cons_of_pos (by decide),
            List.dropWhile_cons_of_pos (by decide)]
          refine .comment (fun hmem => ?_) fun c hc => ?_
          · exact absurd (forall_mem_takeWhile line _ hmem) (by decide)
          · simpa using forall_mem_head?_dropWhile line c hc
        split at h
        · rename_i hquote
          cases hclose : closeLiteral cs with
          | none => rw [hclose] at h; cases h
          | some closed =>
              rw [hclose] at h
              obtain ⟨rfl, rfl, rfl⟩ := Munch.token.inj h
              rw [hquote]
              exact .literal (closeLiteral_eq_some_iff.1 hclose).1
        split at h
        · rename_i hstart
          obtain ⟨rfl, rfl, rfl⟩ := Munch.token.inj h
          exact .ident hstart (forall_mem_takeWhile cs) (forall_mem_head?_dropWhile cs)
        · cases h
  · rintro ⟨h, rfl⟩
    cases h with
    | single hkind => simp [munch, hkind]
    | @comment line _ hline hrest =>
        have hbody : ∀ c ∈ '/' :: line, (c != '\n') = true :=
          List.forall_mem_cons.2 ⟨by decide, fun c hc => by
            simpa using fun heq : c = '\n' => hline (heq ▸ hc)⟩
        have hbehind : ∀ c ∈ rest.head?, (c != '\n') = false := by
          intro c hc
          simp [hrest c hc]
        obtain ⟨htake, hdrop⟩ := takeWhile_dropWhile_append hbody hbehind
        rw [List.cons_append] at htake hdrop
        simp [munch, show singleKind? '/' = none from by decide, htake, hdrop]
    | literal hbody =>
        have hclose := closeLiteral_eq_some_iff.2 ⟨hbody, Eq.refl (_ ++ rest)⟩
        simp [munch, show singleKind? '\x27' = none from by decide, hclose]
    | ident hstart hmore hrest =>
        obtain ⟨hsingle, hslash, hquote⟩ := singleKind?_ident hstart
        obtain ⟨htake, hdrop⟩ := takeWhile_dropWhile_append hmore hrest
        simp [munch, hsingle, hslash, hquote, hstart, htake, hdrop]

/-! ## What the kind of a token says -/

/-- A token of one character has a kind of its own. -/
theorem kind_ne_of_singleKind? {c : Char} {kind : LexemeKind} (h : singleKind? c = some kind) :
    kind ≠ .comment ∧ kind ≠ .ident ∧ kind ≠ .literal := by
  unfold singleKind? at h
  repeat' split at h
  all_goals simp_all
  all_goals subst h; decide

theorem toNat_of_isIdentStart {c : Char} (h : isIdentStart c = true) :
    (65 ≤ c.toNat ∧ c.toNat ≤ 90) ∨ (97 ≤ c.toNat ∧ c.toNat ≤ 122) ∨ c.toNat = 95 := by
  simp only [isIdentStart, Bool.or_eq_true, beq_iff_eq] at h
  rcases h with hletter | rfl
  · rcases Text.isAlpha_iff.1 hletter with hupper | hlower
    · exact Or.inl hupper
    · exact Or.inr (Or.inl hlower)
  · exact Or.inr (Or.inr rfl)

theorem not_isBlank_of_isIdentStart {c : Char} (h : isIdentStart c = true) :
    Text.isBlank c = false := by
  have hc := toNat_of_isIdentStart h
  rw [Bool.eq_false_iff]
  intro hblank
  simp only [Text.isBlank, Text.blanks, List.contains_eq_mem, List.mem_cons, List.not_mem_nil,
    or_false, decide_eq_true_eq] at hblank
  omega

theorem not_isBlank_of_singleKind? {c : Char} {kind : LexemeKind} (h : singleKind? c = some kind) :
    Text.isBlank c = false := by
  unfold singleKind? at h
  repeat' split at h
  all_goals first | (rename_i hc; subst hc; decide) | cases h

namespace Munched

variable {kind : LexemeKind} {taken rest : List Char}

theorem ne_nil (h : Munched kind taken rest) : taken ≠ [] := by
  cases h <;> exact List.cons_ne_nil _ _

/-- No token starts with white space. -/
theorem not_isBlank {c : Char} {more : List Char} (h : Munched kind (c :: more) rest) :
    Text.isBlank c = false := by
  cases h with
  | single hkind => exact not_isBlank_of_singleKind? hkind
  | comment => decide
  | literal => decide
  | ident hstart => exact not_isBlank_of_isIdentStart hstart

/-- A comment ends at a line feed, or with the text. -/
theorem of_comment (h : Munched .comment taken rest) :
    '\n' ∉ taken ∧ ∀ c ∈ rest.head?, c = '\n' := by
  cases h with
  | single hkind => exact absurd rfl (kind_ne_of_singleKind? hkind).1
  | comment hline hrest => exact ⟨by simpa using hline, hrest⟩

/-- An identifier ends where nothing would continue it. -/
theorem of_ident (h : Munched .ident taken rest) : ∀ c ∈ rest.head?, isIdentRest c = false := by
  cases h with
  | single hkind => exact absurd rfl (kind_ne_of_singleKind? hkind).2.1
  | ident _ _ hrest => exact hrest

/-- A literal has a quote at each end. -/
theorem of_literal (h : Munched .literal taken rest) :
    ∃ inside, taken = '\x27' :: (inside ++ ['\x27']) := by
  cases h with
  | single hkind => exact absurd rfl (kind_ne_of_singleKind? hkind).2.2
  | literal hbody =>
      obtain ⟨inside, rfl⟩ := hbody.exists_inside
      exact ⟨inside, rfl⟩

/-- A line feed ends every token, so a token stays one if a line feed and more follow. -/
theorem append_newline (h : Munched kind taken rest) (more : List Char) :
    Munched kind taken (rest ++ '\n' :: more) := by
  have hhead : ∀ c ∈ (rest ++ '\n' :: more).head?, c ∈ rest.head? ∨ c = '\n' := by
    cases rest with
    | nil => exact fun c hc => Or.inr (Option.some.inj hc).symm
    | cons d rest => exact fun c hc => Or.inl hc
  cases h with
  | single hkind => exact .single hkind
  | comment hline hrest => exact .comment hline fun c hc => (hhead c hc).elim (hrest c) id
  | literal hbody => exact .literal hbody
  | ident hstart hmore hrest =>
      refine .ident hstart hmore fun c hc => ?_
      rcases hhead c hc with hc | rfl
      · exact hrest c hc
      · decide

end Munched

end TreeSmith

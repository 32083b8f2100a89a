import Mathlib
import TreeSmith.Proofs.Display.Reading
import TreeSmith.Proofs.Leaves

/-!
# TreeSmith.Proofs.Display.RoundTrip

**A rendered grammar is the same grammar.** Rendering what was read from a text and reading it
again gives the same productions, apart from their places (`ofText_render`).

Two things are lost in a rendering, and the text must have neither. Labels are not part of a
grammar. And only quotes are escaped in an image, so that a backslash would be read as an escape.

Design points:

* A rendering does not depend on places (`render_unplaced`), so it is the rendering of the images
  of the definitions. These are folded rules, which are read back.
* That the names and images of a rule can be written again is known from the lexemes that the
  rule was read from: what it is made of is all among them.
-/

namespace TreeSmith

/-! ## Rendering without places -/

theorem isAtom_unplaced (part : Part) : part.unplaced.isAtom = part.isAtom := by
  cases part <;> rfl

theorem isSingleAtom_unplacedChoices (choices : Choices) :
    isSingleAtom (unplacedChoices choices) = isSingleAtom choices := by
  match choices with
  | [] => rfl
  | [[]] => rfl
  | [[part]] => exact isAtom_unplaced part
  | [_ :: _ :: _] => rfl
  | [] :: _ :: _ => rfl
  | [_] :: _ :: _ => rfl
  | (_ :: _ :: _) :: _ :: _ => rfl

mutual

/-- Places make no difference to a rendering. -/
theorem render_unplaced : ∀ part : Part, part.unplaced.render = part.render
  | .terminal _ _ _ => rfl
  | .nonTerminal _ _ _ => rfl
  | .composite _ times choices code => by
      rw [Part.unplaced, Part.render, Part.render, isSingleAtom_unplacedChoices,
        renderChoices_unplaced choices]

theorem renderSequence_unplaced : ∀ sequence : List Part,
    renderSequence (unplacedSequence sequence) = renderSequence sequence
  | [] => rfl
  | [part] => render_unplaced part
  | part :: next :: rest => by
      show part.unplaced.render ++ " " ++ renderSequence (unplacedSequence (next :: rest)) =
        part.render ++ " " ++ renderSequence (next :: rest)
      rw [render_unplaced part, renderSequence_unplaced (next :: rest)]

theorem renderChoices_unplaced : ∀ choices : List (List Part),
    renderChoices (unplacedChoices choices) = renderChoices choices
  | [] => rfl
  | [sequence] => renderSequence_unplaced sequence
  | sequence :: next :: rest => by
      show renderSequence (unplacedSequence sequence) ++ " | " ++
          renderChoices (unplacedChoices (next :: rest)) =
        renderSequence sequence ++ " | " ++ renderChoices (next :: rest)
      rw [renderSequence_unplaced sequence, renderChoices_unplaced (next :: rest)]

end

theorem Production.render_unplaced (production : Production) :
    production.unplaced.render = production.render := by
  obtain ⟨name, span, body⟩ := production
  cases body with
  | code _ => rfl
  | choices choices =>
      show name ++ " = " ++ renderChoices (unplacedChoices choices) =
        name ++ " = " ++ renderChoices choices
      rw [renderChoices_unplaced]

theorem render_map_unplaced (productions : List Production) (comments : List Comment) :
    Grammar.render ⟨productions.map Production.unplaced, comments⟩ =
      Grammar.render ⟨productions, comments⟩ := by
  rw [Grammar.render, Grammar.render, List.map_map]
  refine congrArg String.join (List.map_congr_left fun production _ => ?_)
  rw [Function.comp_apply, production.render_unplaced]

/-! ## The images of folded rules can be written -/

/-- The tokens that a rendering keeps: names, images without backslashes, and no colon. -/
def Kept : Glyph → Prop
  | .ident name => IsName name
  | .literal image => '\\' ∉ image.toList
  | .colon => False
  | _ => True

/-- All three images of a rule can be written in the notation. -/
structure ImagesPrintable (rule : Rule) : Prop where
  part : rule.partImage.Printable
  sequence : SequencePrintable rule.sequenceImage
  choices : ChoicesPrintable rule.choicesImage

theorem ImagesPrintable.ofPart {rule : Rule} (h : rule.partImage.Printable)
    (hseq : ∀ rules, rule ≠ .seq rules) (halt : ∀ rules, rule ≠ .alt rules) :
    ImagesPrintable rule := by
  refine ⟨h, ?_, ?_⟩
  · rw [sequenceImage_of_ne_seq rule hseq]
    exact ⟨h, trivial⟩
  · rw [choicesImage_of_ne_alt rule halt, sequenceImage_of_ne_seq rule hseq]
    exact ⟨⟨h, trivial⟩, trivial⟩

mutual

theorem imagesPrintable_of_folded : ∀ rule : Rule, rule.FoldedOver Kept → ImagesPrintable rule
  | .node name, h => by
      refine .ofPart ?_ nofun nofun
      rw [Rule.partImage]
      exact ⟨h, rfl⟩
  | .token image, h => by
      refine .ofPart ?_ nofun nofun
      rw [Rule.partImage]
      exact ⟨h, rfl⟩
  | .labeled _ _, h => h.1.elim
  | .opt rule, h => by
      refine .ofPart ?_ nofun nofun
      rw [Rule.partImage]
      exact ⟨nofun, rfl, (imagesPrintable_of_folded rule h).choices⟩
  | .rep rule, h => by
      refine .ofPart ?_ nofun nofun
      rw [Rule.partImage]
      exact ⟨nofun, rfl, (imagesPrintable_of_folded rule h).choices⟩
  | .seq rules, h => by
      have hsequence := (imagesPrintable_all rules h.2).1
      have himage : (Rule.seq rules).sequenceImage = rules.map Rule.partImage := by
        rw [Rule.sequenceImage]
      refine ⟨?_, by rw [himage]; exact hsequence, ?_⟩
      · rw [Rule.partImage]
        exact ⟨nofun, rfl, hsequence, trivial⟩
      · rw [choicesImage_of_ne_alt (.seq rules) nofun, himage]
        exact ⟨hsequence, trivial⟩
  | .alt rules, h => by
      have hchoices := (imagesPrintable_all rules h.2).2
      have hpart : (Rule.alt rules).partImage.Printable := by
        rw [Rule.partImage]
        exact ⟨nofun, rfl, hchoices⟩
      refine ⟨hpart, ?_, ?_⟩
      · rw [sequenceImage_of_ne_seq (.alt rules) nofun]
        exact ⟨hpart, trivial⟩
      · rw [Rule.choicesImage]
        exact hchoices

theorem imagesPrintable_all : ∀ rules : List Rule, AllFoldedOver Kept rules →
    SequencePrintable (rules.map Rule.partImage) ∧
      ChoicesPrintable (rules.map Rule.sequenceImage)
  | [], _ => ⟨trivial, trivial⟩
  | rule :: rules, h => by
      have hrule := imagesPrintable_of_folded rule h.1
      obtain ⟨hsequence, hchoices⟩ := imagesPrintable_all rules h.2
      exact ⟨⟨hrule.part, hsequence⟩, hrule.sequence, hchoices⟩

end

/-! ## Definitions that are read back -/

theorem endsRule_definitions (definitions : List Definition) :
    EndsRule (definitions.flatMap fun definition => definition.image.glyphs) := by
  cases definitions with
  | nil => exact .nil
  | cons definition definitions => exact .definition definition.name _

/-- Definitions of different names are read back from their images. -/
theorem readDefinitions_glyphs {definitions : List Definition}
    (hback : ∀ definition ∈ definitions, ReadBack definition.rule)
    (hnodup : (definitions.map Definition.name).Nodup) {defined : List String}
    (hfresh : ∀ definition ∈ definitions, definition.name ∉ defined) {tokens : List RuleToken}
    (htokens : tokens.map RuleToken.glyph =
      definitions.flatMap fun definition => definition.image.glyphs) :
    readDefinitions defined tokens = .ok definitions := by
  induction definitions generalizing defined tokens with
  | nil =>
      rw [List.map_eq_nil_iff.1 htokens]
      unfold readDefinitions
      rfl
  | cons definition others ih =>
      obtain ⟨hrule, hrules⟩ := List.forall_mem_cons.1 hback
      obtain ⟨hname, hnames⟩ := List.forall_mem_cons.1 hfresh
      rw [List.map_cons, List.nodup_cons] at hnodup
      have hglyphs : tokens.map RuleToken.glyph = .ident definition.name :: .eq ::
          (choicesGlyphs definition.rule.choicesImage ++
            others.flatMap fun other => other.image.glyphs) := htokens
      obtain ⟨namePlace, behindName, rfl, hbehindName⟩ := exists_token hglyphs
      obtain ⟨eqPlace, body, rfl, hbody⟩ := exists_token hbehindName
      -- The next definition ends the rule, and so does the end of the text.
      obtain ⟨left, hread, hleft⟩ := hrule.choices _ body (endsRule_definitions others) hbody
      have hstillFresh : ∀ other ∈ others, other.name ∉ definition.name :: defined := by
        intro other hother hmem
        rcases List.mem_cons.1 hmem with heq | hmem
        · exact hnodup.1 (List.mem_map.2 ⟨other, hother, heq⟩)
        · exact hnames other hother hmem
      have hothers := ih hrules hnodup.2 hstillFresh hleft
      have hnew : ¬ defined.contains definition.name = true := by
        simpa using hname
      unfold readDefinitions
      simp only
      rw [if_neg hnew, hread]
      simp only [bind, Except.bind]
      rw [hothers]
      rfl

/-- Text whose definitions are folded over what a rendering keeps is read back as these. -/
theorem readNotation_render {text : String} {definitions : List Definition}
    (h : readNotation text = .ok definitions) (hnodup : (definitions.map Definition.name).Nodup)
    (hnames : ∀ definition ∈ definitions, IsName definition.name)
    (hfolded : ∀ definition ∈ definitions, definition.rule.FoldedOver Kept)
    (comments : List Comment) :
    readNotation (Grammar.render ⟨definitions.map Definition.image, comments⟩) =
      .ok definitions := by
  have hprintable : ∀ production ∈ definitions.map Definition.image, production.Printable := by
    intro production hproduction
    obtain ⟨definition, hdefinition, rfl⟩ := List.mem_map.1 hproduction
    exact ⟨hnames definition hdefinition, _, rfl,
      (imagesPrintable_of_folded definition.rule (hfolded definition hdefinition)).choices⟩
  obtain ⟨tokens, htokens, hglyphs⟩ := cutInto_render hprintable comments Place.origin
  rw [List.flatMap_map] at hglyphs
  have hback : ∀ definition ∈ definitions, ReadBack definition.rule := by
    intro definition hdefinition
    exact readBack_of_folded id definition.rule (hfolded definition hdefinition)
  have hread : readDefinitions [] tokens = .ok definitions :=
    readDefinitions_glyphs hback hnodup (fun _ _ => List.not_mem_nil) hglyphs
  -- Nothing is undefined, or the first reading would have failed.
  have hdefined : undefinedName? definitions = none := by
    obtain ⟨_, -, h⟩ := bind_eq_ok_iff.1 h
    obtain ⟨found, -, h⟩ := bind_eq_ok_iff.1 h
    split at h
    · cases h
    · rename_i hnone
      obtain rfl := Except.ok.inj h
      exact hnone
  rw [readNotation, ruleTokens, htokens]
  simp only [bind, Except.bind]
  rw [hread]
  simp only [hdefined]
  rfl

/-! ## The round trip -/

/-- What the lexemes of a text are, a rendering keeps, if none is a colon and no terminal has a
backslash. -/
theorem TextWritten.kept {text : String} {definitions : List Definition} {lexemes : Lexemes}
    {productions : List WrittenProduction}
    (h : TextWritten text definitions lexemes productions)
    (hlabels : ∀ lexeme ∈ lexemes.lexemes, lexeme.kind ≠ .colon)
    (himages : ∀ production ∈ productions.map WrittenProduction.place, ∀ span image code,
      Part.terminal span image code ∈ production.leaves → '\\' ∉ image.toList)
    (glyph : Glyph) (hglyph : Among lexemes.lexemes glyph) : Kept glyph := by
  obtain ⟨place, hmem⟩ := hglyph
  cases glyph with
  | ident name =>
      -- The notation has read the same name as a token.
      obtain ⟨tokens, htokens, hspells⟩ := h.spells
      obtain ⟨⟨spelled, tokenPlace⟩, htoken, hspelled⟩ := exists_mem_of_forall₂ hspells hmem
      cases spelled with
      | ident other =>
          obtain rfl : name = other := congrArg Lexeme.text hspelled
          exact isName_of_ruleTokensFrom htokens _ htoken name rfl
      | _ => exact nomatch congrArg Lexeme.kind hspelled
  | literal image =>
      -- The literal is a terminal of some production.
      obtain ⟨span, hterminal⟩ := exists_terminal_of_literal hmem rfl []
      rw [← h.leaves] at hterminal
      obtain ⟨production, hproduction, hleaf⟩ := List.mem_flatMap.1 hterminal
      exact himages production hproduction span image none hleaf
  | colon => exact hlabels _ hmem rfl
  | _ => trivial

/-- **A rendered grammar is the same grammar**, if its text has no labels and no image has a
backslash: it is read again, and gives the same productions but for their places. -/
theorem ofText_render {text : String} {grammar : Grammar} (h : Grammar.ofText text = .ok grammar)
    (hlabels : ∀ lexemes, tokenize text = .ok lexemes →
      ∀ lexeme ∈ lexemes.lexemes, lexeme.kind ≠ .colon)
    (himages : ∀ production ∈ grammar.productions, ∀ span image code,
      Part.terminal span image code ∈ production.leaves → '\\' ∉ image.toList) :
    ∃ again, Grammar.ofText grammar.render = .ok again ∧
      again.productions.map Production.unplaced =
        grammar.productions.map Production.unplaced := by
  obtain ⟨definitions, lexemes, productions, hwritten, rfl⟩ := exists_written_of_ofText h
  have hkept := hwritten.kept (hlabels lexemes hwritten.tokenize) himages
  have hunplaced := unplaced_of_writtenFor hwritten.writtenFor
  have hfolded : ∀ definition ∈ definitions, IsName definition.name ∧
      definition.rule.FoldedOver Kept := by
    intro definition hdefinition
    obtain ⟨production, hproduction, hfor⟩ :=
      exists_mem_of_forall₂ hwritten.writtenFor.flip hdefinition
    have hlexemes : ∀ lexeme ∈ production.lexemes, lexeme ∈ lexemes.lexemes := by
      intro lexeme hlexeme
      rw [hwritten.lexemes_eq]
      exact List.mem_flatMap.2 ⟨production, hproduction, hlexeme⟩
    constructor
    · rw [hfor.name]
      exact hkept (.ident production.name)
        ⟨production.nameSpan, hlexemes _ List.mem_cons_self⟩
    · refine hfor.folded.mono fun glyph hglyph => hkept glyph (hglyph.mono ?_)
      intro lexeme hlexeme
      exact hlexemes lexeme (List.mem_cons_of_mem _ (List.mem_cons_of_mem _ hlexeme))
  -- The rendering is that of the images of the definitions, as it has no places.
  rw [← render_map_unplaced, hunplaced]
  have hread := readNotation_render hwritten.reads hwritten.names_nodup
    (fun definition hdefinition => (hfolded definition hdefinition).1)
    (fun definition hdefinition => (hfolded definition hdefinition).2) lexemes.comments
  obtain ⟨lexemesAgain, productionsAgain, hagain⟩ := exists_written hread
  exact ⟨_, hagain.ofText, unplaced_of_writtenFor hagain.writtenFor⟩

/-- Operators, a group in redundant parentheses, alternatives, and a quote inside an image. -/
theorem ofText_render_nested : ∃ grammar again,
    Grammar.ofText "A = ('it\\'s' | (A)? A)* | B\nB = ((A | 'b')) A" = .ok grammar ∧
      grammar.render = "A = ('it\\'s' | A? A)* | B\nB = (A | 'b') A\n" ∧
      Grammar.ofText grammar.render = .ok again ∧
      again.productions.map Production.unplaced =
        grammar.productions.map Production.unplaced := by
  have hread : Grammar.ofText "A = ('it\\'s' | (A)? A)* | B\nB = ((A | 'b')) A" = .ok ⟨[
      ⟨"A", ⟨0, 27⟩, .choices [[.composite ⟨4, 23⟩ .zeroOrMore [[.terminal ⟨5, 12⟩ "it's" none],
          [.composite ⟨15, 19⟩ .optional [[.nonTerminal ⟨16, 17⟩ "A" none]] none,
            .nonTerminal ⟨20, 21⟩ "A" none]] none],
        [.nonTerminal ⟨26, 27⟩ "B" none]]⟩,
      ⟨"B", ⟨28, 45⟩, .choices [[.composite ⟨32, 42⟩ .once [[.nonTerminal ⟨34, 35⟩ "A" none],
          [.terminal ⟨38, 41⟩ "b" none]] none,
        .nonTerminal ⟨44, 45⟩ "A" none]]⟩], []⟩ := by cbv
  have hcolons : ((tokenize "A = ('it\\'s' | (A)? A)* | B\nB = ((A | 'b')) A").toOption.map
      fun lexemes => lexemes.lexemes.all (·.kind ≠ .colon)) = some true := by cbv
  obtain ⟨again, hagain, hsame⟩ := ofText_render hread
    (fun lexemes hlexemes lexeme hlexeme => by
      rw [hlexemes] at hcolons
      exact of_decide_eq_true (List.all_eq_true.1 (Option.some.inj hcolons) lexeme hlexeme))
    (by
      simp only [Production.leaves, choicesLeaves, sequenceLeaves, Part.leaves, List.append_nil,
        List.nil_append, List.cons_append, List.forall_mem_cons]
      refine ⟨?_, ?_, List.forall_mem_nil _⟩
      all_goals
        intro span image code hleaf
        simp only [List.mem_cons, Part.terminal.injEq, reduceCtorEq, List.not_mem_nil, or_false,
          false_or] at hleaf
        obtain ⟨-, rfl, -⟩ := hleaf
        decide)
  exact ⟨_, again, hread, by decide, hagain, hsame⟩

end TreeSmith

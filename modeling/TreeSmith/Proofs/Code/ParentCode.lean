import TreeSmith.Proofs.Code.DocBlocks
import TreeSmith.Proofs.Code.Members

/-!
# TreeSmith.Proofs.Code.ParentCode

**Code with parents and without them.** A tree whose nodes know their parents needs a field, a
method that sets it and one that gets it, and behind every statement that stores a child a pair of
lines that tells the child. `WithParents` relates code that has all this to code that has nothing of
it, and is otherwise the same: line by line, a statement that stores a child has such a pair behind
it in the one code and not in the other, and no other line stores a child.

From this it follows that whatever the one code has more than the other is whole lines of text
(`WithParents.sublist_textLines`), and that every statement in it that stores a child has the
registration of this child right behind it (`WithParents.tellsAll`).
-/

namespace TreeSmith

/-! ## Names and what stands behind them -/

namespace Text

/-- The text has letters and digits in it, and nothing else. -/
def Alphanumeric (text : String) : Prop :=
  text.toList.all Char.isAlphanum = true

instance (text : String) : Decidable (Alphanumeric text) :=
  inferInstanceAs (Decidable (text.toList.all Char.isAlphanum = true))

theorem Alphanumeric.append {a b : String} (ha : Alphanumeric a) (hb : Alphanumeric b) :
    Alphanumeric (a ++ b) := by
  rw [Alphanumeric, String.toList_append, List.all_append, Bool.and_eq_true]
  exact ⟨ha, hb⟩

theorem alphanumeric_toString (n : Nat) : Alphanumeric (toString n) := by
  refine List.all_eq_true.2 fun c hc => ?_
  rw [Nat.toString_eq_ofList_toDigits, String.toList_ofList] at hc
  rw [Char.isAlphanum, Nat.isDigit_of_mem_toDigits (by decide) (by decide) hc, Bool.or_true]

theorem Alphanumeric.takeWhile {text : String} (h : Alphanumeric text) {c : Char}
    (hc : c.isAlphanum = false) (cs : List Char) :
    (text.toList ++ c :: cs).takeWhile Char.isAlphanum = text.toList := by
  rw [List.takeWhile_append_of_pos (List.all_eq_true.1 h),
    List.takeWhile_cons_of_neg (by simp [hc]), List.append_nil]

theorem Alphanumeric.unindent {text : String} (h : Alphanumeric text) {c : Char} (hc : c ≠ ' ')
    (cs : List Char) : unindent (text.toList ++ c :: cs) = text.toList ++ c :: cs := by
  rw [Alphanumeric] at h
  cases hlist : text.toList with
  | nil => exact List.dropWhile_cons_of_neg (by simpa using hc)
  | cons d ds =>
      rw [hlist, List.all_cons, Bool.and_eq_true] at h
      obtain ⟨hd, -⟩ := h
      exact List.dropWhile_cons_of_neg fun hspace => absurd (eq_of_beq hspace ▸ hd) (by decide)

/-- Such a text ends at the first other character. -/
theorem Alphanumeric.cut_unique {a b : String} (ha : Alphanumeric a) (hb : Alphanumeric b)
    {c d : Char} (hc : c.isAlphanum = false) (hd : d.isAlphanum = false) {cs ds : List Char}
    (h : a.toList ++ c :: cs = b.toList ++ d :: ds) : a = b ∧ c :: cs = d :: ds := by
  have hab : a.toList = b.toList := by
    rw [← ha.takeWhile hc cs, h, hb.takeWhile hd ds]
  exact ⟨String.toList_inj.1 hab, List.append_cancel_left (hab ▸ h)⟩

end Text

/-! ## Where children are stored -/

/-- A field that holds children: a single one, or a list of them. -/
inductive ChildSlot where
  | single (field : String)
  | list (field : String)
  deriving DecidableEq, Repr

namespace ChildSlot

/-- The name of the field. -/
def field : ChildSlot → String
  | single field | list field => field

/-- The statement that stores a child. -/
def store (value : String) : ChildSlot → String
  | single field => field ++ " = " ++ value ++ ";"
  | list field => field ++ ".add(" ++ value ++ ");"

/-- What a stored value can be called: by its own name, or by the field that holds nothing else. -/
def Names (slot : ChildSlot) (value child : String) : Prop :=
  child = value ∨ slot = .single child

theorem toList_store_single (field value : String) : ((single field).store value).toList =
    field.toList ++ ' ' :: '=' :: ' ' :: (value.toList ++ [';']) := by
  simp [store]

theorem toList_store_list (field value : String) : ((list field).store value).toList =
    field.toList ++ '.' :: 'a' :: 'd' :: 'd' :: '(' :: (value.toList ++ [')', ';']) := by
  simp [store]

/-- What is stored, and where, can be told from the statement. -/
theorem store_inj {slot other : ChildSlot} (hslot : Text.Alphanumeric slot.field)
    (hother : Text.Alphanumeric other.field) {value value' : String}
    (h : slot.store value = other.store value') : slot = other ∧ value = value' := by
  have hchars := congrArg String.toList h
  cases slot with
  | single field =>
      rw [toList_store_single] at hchars
      cases other with
      | single field' =>
          rw [toList_store_single] at hchars
          obtain ⟨rfl, hvalue⟩ := hslot.cut_unique hother rfl rfl hchars
          exact ⟨rfl, by simpa [String.toList_inj] using hvalue⟩
      | list field' =>
          rw [toList_store_list] at hchars
          obtain ⟨-, hmark⟩ := hslot.cut_unique hother rfl rfl hchars
          simp at hmark
  | list field =>
      rw [toList_store_list] at hchars
      cases other with
      | single field' =>
          rw [toList_store_single] at hchars
          obtain ⟨-, hmark⟩ := hslot.cut_unique hother rfl rfl hchars
          simp at hmark
      | list field' =>
          rw [toList_store_list] at hchars
          obtain ⟨rfl, hvalue⟩ := hslot.cut_unique hother rfl rfl hchars
          exact ⟨rfl, by simpa [String.toList_inj] using hvalue⟩

/-- Nothing is stored where a child is told. -/
theorem store_ne_setParent {slot : ChildSlot} (hslot : Text.Alphanumeric slot.field)
    {child : String} (hchild : Text.Alphanumeric child) (value : String) :
    child ++ ".setParent(this);" ≠ slot.store value := by
  intro h
  have hchars : child.toList ++ '.' :: "setParent(this);".toList = (slot.store value).toList := by
    rw [← h]
    simp
  cases slot with
  | single field =>
      rw [toList_store_single] at hchars
      obtain ⟨-, hmark⟩ := hchild.cut_unique hslot rfl rfl hchars
      simp at hmark
  | list field =>
      rw [toList_store_list] at hchars
      obtain ⟨-, hmark⟩ := hchild.cut_unique hslot rfl rfl hchars
      simp at hmark

end ChildSlot

/-- The line, without its spaces, is a statement that stores a value in the slot. -/
def CodeLine.StoresIn (line : CodeLine) (slot : ChildSlot) (value : String) : Prop :=
  Text.unindent line.chars = (slot.store value).toList

/-- The line stores no child in any of the slots; `null` is none. -/
def CodeLine.StoresNone (slots : List ChildSlot) (line : CodeLine) : Prop :=
  ∀ slot ∈ slots, ∀ value, line.StoresIn slot value → value = "null"

/-- The line stores no child, and is one line of text unless it is a comment. -/
structure CodeLine.Untouched (comments : List Comment) (slots : List ChildSlot) (line : CodeLine) :
    Prop where
  whole : line.SingleLine ∨ line.IsComment comments
  storesNone : line.StoresNone slots

section Untouched

variable {comments : List Comment} {slots : List ChildSlot} {indent : Indent}

/-- The names of these fields start with one of three letters, and no other line of a class starts
like that but for a few in support classes. -/
def ChildSlot.Initialed (slots : List ChildSlot) : Prop :=
  ∀ slot ∈ slots, ∃ c ∈ ['c', 'f', 'n'], slot.field.toList.head? = some c

theorem ChildSlot.head?_store {slot : ChildSlot} {c : Char}
    (h : slot.field.toList.head? = some c) (value : String) :
    (slot.store value).toList.head? = some c := by
  cases slot <;> exact Text.head?_append (Text.head?_append (Text.head?_append h))

/-- What starts with another letter stores no child. -/
theorem CodeLine.storesNone_of_head? (hslots : ChildSlot.Initialed slots) {line : CodeLine}
    (hhead : ∀ c ∈ (Text.unindent line.chars).head?, c ∉ ['c', 'f', 'n']) :
    line.StoresNone slots := by
  intro slot hslot value hstores
  obtain ⟨c, hc, hfield⟩ := hslots slot hslot
  refine absurd hc (hhead c ?_)
  rw [hstores]
  exact ChildSlot.head?_store hfield value

theorem CodeLine.IsComment.untouched (hslots : ChildSlot.Initialed slots) {line : CodeLine}
    (h : line.IsComment comments) : line.Untouched comments slots := by
  refine ⟨Or.inr h, CodeLine.storesNone_of_head? hslots fun c hc => ?_⟩
  rcases Text.head?_unindent_of_isCommentLine h.marked with hslash | hstar
  · rw [Option.mem_unique hc hslash]
    decide
  · rw [Option.mem_unique hc hstar]
    decide

theorem untouched_emptyLine (hslots : ChildSlot.Initialed slots) :
    emptyLine.Untouched comments slots :=
  ⟨Or.inl singleLine_emptyLine, CodeLine.storesNone_of_head? hslots fun _ hc => by cases hc⟩

theorem storesNone_line (hslots : ChildSlot.Initialed slots) (hindent : indent.Spaced)
    {text : String} {c : Char} (hhead : text.toList.head? = some c)
    (hc : c ∉ [' ', 'c', 'f', 'n']) : (indent.line text).StoresNone slots := by
  obtain ⟨hspace, hletters⟩ := not_or.1 (List.mem_cons.not.1 hc)
  refine CodeLine.storesNone_of_head? hslots fun d hd => ?_
  rw [unindent_line_of_head? hindent hhead hspace] at hd
  rwa [Option.mem_unique hd hhead]

theorem untouched_line (hslots : ChildSlot.Initialed slots) (hindent : indent.Spaced)
    {text : String} {c : Char} (hhead : text.toList.head? = some c) (hc : c ∉ [' ', 'c', 'f', 'n'])
    (hsingle : Text.SingleLine text) : (indent.line text).Untouched comments slots :=
  ⟨Or.inl ((singleLine_line hindent).2 hsingle), storesNone_line hslots hindent hhead hc⟩

theorem untouched_paragraph (hslots : ChildSlot.Initialed slots) (hindent : indent.Spaced)
    {text : String} {c : Char} (hhead : text.toList.head? = some c) (hc : c ∉ [' ', 'c', 'f', 'n'])
    (hsingle : Text.SingleLine text) :
    ∀ line ∈ indent.paragraph text, line.Untouched comments slots :=
  Indent.forall_mem_paragraph.2
    ⟨untouched_line hslots hindent hhead hc hsingle, untouched_emptyLine hslots⟩

theorem untouched_opening (hslots : ChildSlot.Initialed slots) (hindent : indent.Spaced)
    {header : String} {c : Char} (hhead : header.toList.head? = some c)
    (hc : c ∉ [' ', 'c', 'f', 'n']) (hsingle : Text.SingleLine header) :
    (indent.opening header).Untouched comments slots :=
  untouched_line hslots hindent (Text.head?_append hhead) hc
    (Text.singleLine_append.2 ⟨hsingle, by decide⟩)

theorem untouched_closing (hslots : ChildSlot.Initialed slots) (hindent : indent.Spaced) :
    indent.closing.Untouched comments slots :=
  untouched_line hslots hindent rfl (by decide) (by decide)

theorem OnlyComments.untouched (hslots : ChildSlot.Initialed slots) {code : Code}
    (h : OnlyComments comments code) : ∀ line ∈ code, line.Untouched comments slots :=
  fun line hline => (h line hline).untouched hslots

/-- Where no comments are known of, the line is one line of text. -/
theorem CodeLine.Untouched.singleLine {line : CodeLine} (h : line.Untouched [] slots) :
    line.SingleLine :=
  h.whole.elim id fun hcomment => hcomment.quotes.not_mem (List.forall_mem_nil _)

end Untouched

/-! ## What comes with parents -/

/-- What a class or an interface has only if nodes know their parents. -/
inductive ParentMember where
  | field
  | setter
  | getter
  | setterDeclaration
  | getterDeclaration
  deriving DecidableEq, Repr

/-- The code of such a member, with its documentation and the empty line behind it. -/
def ParentMember.code (config : Config) (part : ParentMember) : Code :=
  let indent := Indent.ofLevel config.indentAmount 1
  let body := Indent.ofLevel config.indentAmount 2
  match part with
  | field =>
    codeIf config.javadocComments [indent.shortDoc "The parent node"] ++
      indent.paragraph ("private " ++ config.nodeInterface ++ " parent;")
  | setter =>
    codeIf config.javadocComments
        (indent.doc "Sets the parent node." ["@param n - the parent node"]) ++
      indent.line "@Override" ::
      indent.member ("public " ++ setParentSignature config) [body.line "parent = n;"]
  | getter =>
    codeIf config.javadocComments
        (indent.doc "Gets the parent node." ["@return the parent node"]) ++
      indent.line "@Override" ::
      indent.member ("public " ++ getParentSignature config) [body.line "return parent;"]
  | setterDeclaration => indent.paragraph ("public " ++ setParentSignature config ++ ";")
  | getterDeclaration => indent.paragraph ("public " ++ getParentSignature config ++ ";")

/-- The lines that tell a child who its parent is. -/
def registration (config : Config) (child : String) : Code :=
  [(Indent.ofLevel config.indentAmount 2).line ("if (" ++ child ++ " != null)"),
    (Indent.ofLevel config.indentAmount 3).line (child ++ ".setParent(this);")]

/-- Behind every statement that stores a child in one of the slots, this child is told. -/
def TellsAll (config : Config) (slots : List ChildSlot) (code : Code) : Prop :=
  ∀ line after, line :: after <:+ code → ∀ slot ∈ slots, ∀ value, line.StoresIn slot value →
    value = "null" ∨ ∃ child, slot.Names value child ∧ registration config child <+: after

section TellsAll

variable {config : Config} {slots : List ChildSlot}

theorem tellsAll_nil (config : Config) (slots : List ChildSlot) : TellsAll config slots [] :=
  fun _ _ h => absurd (List.suffix_nil.1 h) (List.cons_ne_nil _ _)

theorem tellsAll_cons {line : CodeLine} {code : Code} :
    TellsAll config slots (line :: code) ↔
      (∀ slot ∈ slots, ∀ value, line.StoresIn slot value →
        value = "null" ∨ ∃ child, slot.Names value child ∧ registration config child <+: code) ∧
      TellsAll config slots code := by
  refine ⟨fun h => ⟨h line code (List.suffix_refl _), fun other after hafter =>
    h other after (hafter.trans (List.suffix_cons line code))⟩, ?_⟩
  rintro ⟨hline, hcode⟩ other after hafter
  rcases List.suffix_cons_iff.1 hafter with heq | hafter
  · obtain ⟨rfl, rfl⟩ := List.cons.inj heq
    exact hline
  · exact hcode other after hafter

theorem TellsAll.append {before code : Code} (hbefore : ∀ line ∈ before, line.StoresNone slots)
    (hcode : TellsAll config slots code) : TellsAll config slots (before ++ code) := by
  induction before with
  | nil => exact hcode
  | cons line before ih =>
      obtain ⟨hline, hrest⟩ := List.forall_mem_cons.1 hbefore
      exact tellsAll_cons.2
        ⟨fun slot hslot value hstores => Or.inl (hline slot hslot value hstores), ih hrest⟩

theorem storesNone_registration (config : Config) (hslots : ChildSlot.Initialed slots)
    (hfields : ∀ slot ∈ slots, Text.Alphanumeric slot.field) {child : String}
    (hchild : Text.Alphanumeric child) :
    ∀ line ∈ registration config child, line.StoresNone slots := by
  have hguard : ((Indent.ofLevel config.indentAmount 2).line
      ("if (" ++ child ++ " != null)")).StoresNone slots :=
    storesNone_line hslots (spaced_ofLevel ..) (Text.head?_append (Text.head?_append rfl))
      (by decide)
  refine List.forall_mem_cons.2 ⟨hguard, List.forall_mem_singleton.2 ?_⟩
  intro slot hslot value hstores
  have hunindent : Text.unindent (child ++ ".setParent(this);").toList =
      (child ++ ".setParent(this);").toList := by
    rw [String.toList_append]
    exact hchild.unindent (by decide) "setParent(this);".toList
  rw [CodeLine.StoresIn, unindent_line (spaced_ofLevel ..), hunindent] at hstores
  exact absurd (String.toList_inj.1 hstores)
    (ChildSlot.store_ne_setParent (hfields slot hslot) hchild value)

end TellsAll

/-- The first code is the second with these members for the parent, and with these children told
about it, each by a registration directly behind the statement that stores it. Whatever it has more
is whole lines of text. -/
inductive WithParents (config : Config) (comments : List Comment) (slots : List ChildSlot) :
    List ParentMember → List String → Code → Code → Prop
  | nil : WithParents config comments slots [] [] [] []
  | line {line : CodeLine} {parts : List ParentMember} {children : List String} {one two : Code}
      (hline : line.Untouched comments slots)
      (h : WithParents config comments slots parts children one two) :
      WithParents config comments slots parts children (line :: one) (line :: two)
  | store {line : CodeLine} {slot : ChildSlot} {value child : String} {parts : List ParentMember}
      {children : List String} {one two : Code} (hslot : slot ∈ slots)
      (hline : line.StoresIn slot value) (hchild : slot.Names value child)
      (hsingle : ∀ added ∈ line :: registration config child, added.SingleLine)
      (h : WithParents config comments slots parts children one two) :
      WithParents config comments slots parts (child :: children)
        (line :: (registration config child ++ one)) (line :: two)
  | member {part : ParentMember} {parts : List ParentMember} {children : List String}
      {one two : Code} (hsingle : ∀ added ∈ part.code config, added.SingleLine)
      (h : WithParents config comments slots parts children one two) :
      WithParents config comments slots (part :: parts) children (part.code config ++ one) two

namespace WithParents

variable {config : Config} {comments : List Comment} {slots : List ChildSlot}
  {parts others : List ParentMember} {children more : List String} {one two three four : Code}

theorem append (h : WithParents config comments slots parts children one two)
    (h' : WithParents config comments slots others more three four) :
    WithParents config comments slots (parts ++ others) (children ++ more) (one ++ three)
      (two ++ four) := by
  induction h with
  | nil => exact h'
  | line hline _ ih => exact .line hline ih
  | store hslot hline hchild hsingle _ ih =>
      simp only [List.cons_append, List.append_assoc]
      exact .store hslot hline hchild hsingle ih
  | member hsingle _ ih =>
      rw [List.append_assoc]
      exact .member hsingle ih

/-- Code that stores no child is the same with parents and without them. -/
theorem untouched {code : Code} (h : ∀ line ∈ code, line.Untouched comments slots) :
    WithParents config comments slots [] [] code code := by
  induction code with
  | nil => exact .nil
  | cons line code ih =>
      obtain ⟨hline, hcode⟩ := List.forall_mem_cons.1 h
      exact .line hline (ih hcode)

theorem flatMap {α : Type} {l : List α} {told : α → List String} {write write' : α → Code}
    (h : ∀ a ∈ l, WithParents config comments slots [] (told a) (write a) (write' a)) :
    WithParents config comments slots [] (l.flatMap told) (l.flatMap write)
      (l.flatMap write') := by
  induction l with
  | nil => exact .nil
  | cons a l ih =>
      obtain ⟨hfirst, hrest⟩ := List.forall_mem_cons.1 h
      exact hfirst.append (ih hrest)

/-- **Whole lines of text** are what the one code has more than the other. -/
theorem sublist_textLines (h : WithParents config comments slots parts children one two) :
    (textLines two).Sublist (textLines one) := by
  induction h with
  | nil => exact List.Sublist.refl _
  | line _ _ ih => exact (List.Sublist.refl _).append ih
  | store _ _ _ _ _ ih =>
      rw [textLines_cons, textLines_cons, textLines_append]
      exact (List.Sublist.refl _).append (ih.trans (List.sublist_append_right _ _))
  | member _ _ ih =>
      rw [textLines_append]
      exact ih.trans (List.sublist_append_right _ _)

/-- Both codes are written on single lines if the comments are. -/
theorem singleLine (h : WithParents config comments slots parts children one two)
    (hcomments : ∀ comment ∈ comments, Text.SingleLine comment.text) :
    (∀ line ∈ one, line.SingleLine) ∧ ∀ line ∈ two, line.SingleLine := by
  induction h with
  | nil => exact ⟨List.forall_mem_nil _, List.forall_mem_nil _⟩
  | line hline _ ih =>
      have hsingle := hline.whole.elim id fun hcomment => hcomment.quotes.not_mem hcomments
      exact ⟨List.forall_mem_cons.2 ⟨hsingle, ih.1⟩, List.forall_mem_cons.2 ⟨hsingle, ih.2⟩⟩
  | store _ _ _ hsingle _ ih =>
      obtain ⟨hstore, hregistration⟩ := List.forall_mem_cons.1 hsingle
      exact ⟨List.forall_mem_cons.2 ⟨hstore, List.forall_mem_append.2 ⟨hregistration, ih.1⟩⟩,
        List.forall_mem_cons.2 ⟨hstore, ih.2⟩⟩
  | member hsingle _ ih => exact ⟨List.forall_mem_append.2 ⟨hsingle, ih.1⟩, ih.2⟩

/-- **The child is told behind every statement that stores one**, if the names of fields and of
children are plain. -/
theorem tellsAll (h : WithParents config comments slots parts children one two)
    (hslots : ChildSlot.Initialed slots)
    (hfields : ∀ slot ∈ slots, Text.Alphanumeric slot.field)
    (hchildren : ∀ child ∈ children, Text.Alphanumeric child)
    (hparts : ∀ part : ParentMember, ∀ line ∈ part.code config, line.StoresNone slots) :
    TellsAll config slots one := by
  induction h with
  | nil => exact tellsAll_nil config slots
  | line hline _ ih =>
      exact tellsAll_cons.2
        ⟨fun slot hslot value hstores => Or.inl (hline.storesNone slot hslot value hstores),
          ih hchildren⟩
  | @store line slot value child _ _ one _ hslot hline hchild _ _ ih =>
      obtain ⟨hname, hrest⟩ := List.forall_mem_cons.1 hchildren
      refine tellsAll_cons.2 ⟨fun other hother value' hstores => Or.inr ?_,
        (ih hrest).append (storesNone_registration config hslots hfields hname)⟩
      -- What is stored can be told from the statement, so it is this child and no other.
      obtain ⟨rfl, rfl⟩ := ChildSlot.store_inj (hfields slot hslot) (hfields other hother)
        (String.toList_inj.1 (hline.symm.trans hstores))
      exact ⟨child, hchild, List.prefix_append _ _⟩
  | member _ _ ih => exact (ih hchildren).append (hparts _)

/-- A member of a class that opens with this line. -/
theorem memberAround {indent : Indent} (hslots : ChildSlot.Initialed slots)
    (hindent : indent.Spaced) {header : String} {c : Char} (hhead : header.toList.head? = some c)
    (hc : c ∉ [' ', 'c', 'f', 'n']) (hsingle : Text.SingleLine header)
    (h : WithParents config comments slots [] children one two) :
    WithParents config comments slots [] children (indent.member header one)
      (indent.member header two) := by
  have hclosing : WithParents config comments slots [] [] _ _ :=
    .line (untouched_closing hslots hindent) (.line (untouched_emptyLine hslots) .nil)
  have hinside := (WithParents.line (untouched_opening hslots hindent hhead hc hsingle) h).append
    hclosing
  simp only [List.append_nil] at hinside
  exact hinside

end WithParents

end TreeSmith

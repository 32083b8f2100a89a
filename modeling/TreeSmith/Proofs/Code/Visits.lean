import TreeSmith.Proofs.Comments.Blocks
import TreeSmith.Proofs.Generation.Warnings

/-!
# TreeSmith.Proofs.Code.Visits

**What the depth-first visitor does at a node.** The body of a visit goes through the fields of the
node type in order. For each it has the comments of the field and of its sub-parts, where they are
wanted here, then the user's code, and then the one statement that visits the field (`FieldVisit`);
there is nothing else in it.

Sub-parts are numbered through the whole production and looked up by their number again, so what has
to be shown is that the numbers of all fields together are all numbers, each once. Then every owner
of comments comes up once in a body, and with it every comment (`nodup_owners`, `perm_shown`). Main
statement: `generate_visits`.
-/

namespace TreeSmith

/-! ## Members by their keys and numbers -/

/-- What is made of members alone does not need their numbers. -/
theorem map_zipIdx_fst {α β : Type} (f : α → β) (l : List α) :
    (l.zipIdx.map fun numbered => f numbered.1) = l.map f := by
  conv_rhs => rw [← List.zipIdx_map_fst 0 l, List.map_map]
  rfl

/-- The parts of a list by keys that are all different make up the list again, in some order, if
every member has one of the keys. -/
theorem perm_flatMap_filter {α β : Type} [DecidableEq β] {key : α → β} {keys : List β} {l : List α}
    (hkeys : keys.Nodup) (hkey : ∀ a ∈ l, key a ∈ keys) :
    (keys.flatMap fun k => l.filter (key · = k)).Perm l := by
  induction keys generalizing l with
  | nil =>
      cases l with
      | nil => exact List.Perm.refl _
      | cons a l => exact absurd (hkey a List.mem_cons_self) List.not_mem_nil
  | cons k keys ih =>
      obtain ⟨hnew, hkeys⟩ := List.nodup_cons.1 hkeys
      -- What does not have the first key has one of the others.
      have hrest := ih (l := l.filter fun a => !decide (key a = k)) hkeys fun a ha => by
        obtain ⟨hmem, hne⟩ := List.mem_filter.1 ha
        exact (List.mem_cons.1 (hkey a hmem)).resolve_left (by simpa using hne)
      have hothers : ∀ other ∈ keys,
          (l.filter fun a => !decide (key a = k)).filter (key · = other) =
            l.filter (key · = other) := by
        intro other hother
        have hne : other ≠ k := fun h => hnew (h ▸ hother)
        rw [List.filter_filter]
        refine List.filter_congr fun a _ => ?_
        by_cases h : key a = other
        · simp [h, hne]
        · simp [h]
      rw [List.flatMap_def, List.map_congr_left hothers, ← List.flatMap_def] at hrest
      rw [List.flatMap_cons]
      exact (hrest.append_left _).trans (List.filter_append_perm _ l)

/-! ## Owners in the order of a body -/

namespace Annotations

/-- The numbers of the sub-parts of field `i`, in their order. -/
def subNumbers (annotations : Annotations) (i : Nat) : List Nat :=
  (List.range (annotations.subs.getD []).length).filter fun k =>
    (annotations.subs.getD [])[k]?.map SubPart.field = some i

/-- Field `i` and its sub-parts. -/
def ownersAt (annotations : Annotations) (i : Nat) : List Owner :=
  .field i :: (annotations.subNumbers i).map .sub

/-- The comment lines of field `i` and then of its sub-parts, each with the owner. -/
def shown (annotations : Annotations) (i : Nat) : List (Owner × CommentLine) :=
  (annotations.ownersAt i).flatMap fun owner =>
    ((annotations.block? owner).getD []).map fun line => (owner, line)

theorem mem_subNumbers {annotations : Annotations} {i k : Nat} :
    k ∈ annotations.subNumbers i ↔
      (annotations.subs.getD [])[k]?.map SubPart.field = some i := by
  rw [subNumbers, List.mem_filter, List.mem_range, decide_eq_true_eq]
  refine ⟨And.right, fun h => ⟨?_, h⟩⟩
  obtain ⟨sub, hsub, -⟩ := Option.map_eq_some_iff.1 h
  exact (List.getElem?_eq_some_iff.1 hsub).1

/-- The sub-parts of a field are listed by their numbers. -/
theorem map_fst_subsOf (annotations : Annotations) (i : Nat) :
    (annotations.subsOf i).map Prod.fst = annotations.subNumbers i := by
  rw [subsOf, subNumbers]
  generalize annotations.subs.getD [] = subs
  have hfield : ∀ sub ∈ subs.zipIdx,
      (sub.1.field == i) = decide (subs[sub.2]?.map SubPart.field = some i) := by
    intro sub hsub
    rw [List.mem_zipIdx_iff_getElem?.1 hsub, Option.map_some, Bool.beq_eq_decide_eq]
    exact decide_eq_decide.2 Option.some_inj.symm
  rw [List.filter_map, List.map_map, List.range_eq_range', ← List.zipIdx_map_snd, List.filter_map]
  exact congrArg _ (List.filter_congr hfield)

/-- Every owner comes up once, for one field. -/
theorem nodup_owners (annotations : Annotations) (n : Nat) :
    ((List.range n).flatMap annotations.ownersAt).Nodup := by
  refine List.nodup_flatMap.2 ⟨fun i _ => ?_, List.nodup_range.imp ?_⟩
  · refine List.nodup_cons.2 ⟨?_, ?_⟩
    · intro hmem
      obtain ⟨k, -, hk⟩ := List.mem_map.1 hmem
      cases hk
    · exact (List.nodup_range.filter _).map fun _ _ => Owner.sub.inj
  · intro i j hne owner hi hj
    cases owner with
    | field k =>
        have hki : k = i := by simpa [ownersAt] using hi
        have hkj : k = j := by simpa [ownersAt] using hj
        exact hne (hki.symm.trans hkj)
    | sub k =>
        -- A sub-part is in one field only.
        have hki : k ∈ annotations.subNumbers i := by simpa [ownersAt] using hi
        have hkj : k ∈ annotations.subNumbers j := by simpa [ownersAt] using hj
        exact hne (Option.some.inj ((mem_subNumbers.1 hki).symm.trans (mem_subNumbers.1 hkj)))

/-- Whatever has a block comes up, if the sub-parts are in fields that there are. -/
theorem mem_owners {annotations : Annotations} {owner : Owner}
    (hfields : ∀ sub ∈ annotations.subs.getD [], sub.field < annotations.fields.length)
    (h : (annotations.block? owner).isSome) :
    owner ∈ (List.range annotations.fields.length).flatMap annotations.ownersAt := by
  obtain ⟨block, hblock⟩ := Option.isSome_iff_exists.1 h
  cases owner with
  | field i =>
      obtain ⟨hlt, -⟩ := List.getElem?_eq_some_iff.1 hblock
      exact List.mem_flatMap.2 ⟨i, List.mem_range.2 hlt, List.mem_cons_self⟩
  | sub k =>
      obtain ⟨sub, hsub, -⟩ := Option.map_eq_some_iff.1 hblock
      refine List.mem_flatMap.2
        ⟨sub.field, List.mem_range.2 (hfields sub (List.mem_of_getElem? hsub)), ?_⟩
      refine List.mem_cons_of_mem _ (List.mem_map_of_mem (mem_subNumbers.2 ?_))
      rw [hsub, Option.map_some]

/-- What is shown of all fields is the comments inside `span`, each once. -/
theorem perm_shown {annotations : Annotations} {commentary : Commentary} {span : Span}
    {owner : Comment → Owner}
    (hfields : ∀ sub ∈ annotations.subs.getD [], sub.field < annotations.fields.length)
    (h : BlocksByOwner commentary span owner annotations) :
    ((List.range annotations.fields.length).flatMap annotations.shown).Perm
      ((commentsIn commentary.comments span).map fun comment =>
        (owner comment, commentary.line (owner comment) comment)) := by
  have hcovered : ∀ comment ∈ commentsIn commentary.comments span,
      owner comment ∈ (List.range annotations.fields.length).flatMap annotations.ownersAt :=
    fun comment hcomment => mem_owners hfields (h.owned comment hcomment)
  have hblock : ∀ o, (annotations.block? o).isSome →
      ((annotations.block? o).getD []).map (fun line => (o, line)) =
        ((commentsIn commentary.comments span).filter (owner · = o)).map fun comment =>
          (owner comment, commentary.line (owner comment) comment) := by
    intro o ho
    obtain ⟨block, hblock⟩ := Option.isSome_iff_exists.1 ho
    rw [hblock, Option.getD_some, h.blocks o block hblock, List.map_map]
    refine List.map_congr_left fun comment hcomment => ?_
    obtain rfl : owner comment = o := by simpa using (List.mem_filter.1 hcomment).2
    rfl
  have hsome : ∀ o ∈ (List.range annotations.fields.length).flatMap annotations.ownersAt,
      (annotations.block? o).isSome := by
    intro o ho
    obtain ⟨i, hi, hmem⟩ := List.mem_flatMap.1 ho
    rcases List.mem_cons.1 hmem with rfl | hmem
    · simpa [block?] using hi
    · obtain ⟨k, hk, rfl⟩ := List.mem_map.1 hmem
      obtain ⟨sub, hsub, -⟩ := Option.map_eq_some_iff.1 (mem_subNumbers.1 hk)
      simp [block?, hsub]
  have hall : (List.range annotations.fields.length).flatMap annotations.shown =
      ((List.range annotations.fields.length).flatMap annotations.ownersAt).flatMap fun o =>
        ((commentsIn commentary.comments span).filter (owner · = o)).map fun comment =>
          (owner comment, commentary.line (owner comment) comment) := by
    rw [← List.flatMap_congr fun o ho => hblock o (hsome o ho), List.flatMap_assoc]
    rfl
  rw [hall, ← List.map_flatMap]
  exact (perm_flatMap_filter (nodup_owners _ _) hcovered).map _

end Annotations

/-! ## The body of a visit -/

/-- The text of a comment line in a body. Debug comments name the owner. -/
def inlineText (config : Config) (owner : Owner) (line : CommentLine) : String :=
  "// " ++ line.bare ++ if config.debugComments then " ; " ++ owner.label else ""

/-- The visit of a field and what is written in front of it: comment lines, each with its owner,
and lines of the user's code. -/
structure FieldVisit where
  comments : List (Owner × CommentLine)
  user : List String
  field : String

namespace FieldVisit

/-- The lines of the visit of a field. -/
def code (config : Config) (indent : Indent) (visit : FieldVisit) : Code :=
  (visit.comments.map fun (owner, line) => indent.line (inlineText config owner line)) ++
    visit.user.map indent.line ++ [indent.line ("n." ++ visit.field ++ ".accept(this);")]

/-- The visit of a field, given its number and what is known of comments. -/
def ofField (known : Option Annotations) (numbered : Field × Nat) : FieldVisit where
  comments := (known.map (·.shown numbered.2)).getD []
  user := Text.trimmedLines (numbered.1.code.getD "")
  field := numbered.1.name

end FieldVisit

theorem codeComments_label (config : Config) (indent : Indent) (owner : Owner)
    (block : CommentBlock) :
    Ask.codeComments config indent (some owner.label) block =
      block.map fun line => indent.line (inlineText config owner line) := rfl

theorem userCode_eq (indent : Indent) (field : Field) :
    userCode indent field = (Text.trimmedLines (field.code.getD "")).map indent.line := by
  unfold userCode
  cases field.code with
  | none => rfl
  | some code => rfl

/-- The comments in front of a visit are those of the field and of its sub-parts. -/
theorem inlineComments_eq (config : Config) (indent : Indent) {i : Nat} {field : Field}
    (hname : field.name = (Owner.field i).label) (known : Option Annotations) :
    inlineComments config indent i field known =
      ((known.map (·.shown i)).getD []).map fun (owner, line) =>
        indent.line (inlineText config owner line) := by
  cases known with
  | none => rfl
  | some known =>
      have hsubs : ((known.subsOf i).flatMap fun sub =>
          Ask.codeComments config indent (some ("s" ++ toString sub.1)) sub.2.block) =
            (known.subNumbers i).flatMap fun k =>
              ((known.block? (.sub k)).getD []).map fun line =>
                indent.line (inlineText config (.sub k) line) := by
        rw [← Annotations.map_fst_subsOf, List.flatMap_map]
        refine List.flatMap_congr fun sub hsub => ?_
        rw [Annotations.block?, Annotations.getElem?_of_mem_subsOf hsub]
        rfl
      rw [inlineComments, hname, codeComments_label, hsubs, Option.map_some, Option.getD_some,
        Annotations.shown, Annotations.ownersAt, List.flatMap_cons, List.map_append, List.map_map,
        List.flatMap_map, List.map_flatMap]
      simp only [List.map_map]
      rfl

/-- The visits of fields that are numbered from `i` on. -/
theorem fieldVisits_eq_flatMap (config : Config) (indent : Indent) (known : Option Annotations)
    {i : Nat} {fields : List Field}
    (hnames : fields.map Field.name =
      (List.range' i fields.length).map fun k => (Owner.field k).label) :
    fieldVisits config indent known i fields =
      ((fields.zipIdx i).map (FieldVisit.ofField known)).flatMap
        (FieldVisit.code config indent) := by
  induction fields generalizing i with
  | nil => rfl
  | cons field fields ih =>
      rw [List.length_cons, List.range'_succ, List.map_cons, List.map_cons] at hnames
      obtain ⟨hname, hnames⟩ := List.cons.inj hnames
      rw [fieldVisits, ih hnames, inlineComments_eq config indent hname, userCode_eq,
        List.zipIdx_cons, List.map_cons, List.flatMap_cons]
      simp [FieldVisit.code, FieldVisit.ofField, fieldVisit]

/-! ## The depth-first visitor -/

/-- The visits of the fields of a production. -/
def visitsOf (config : Config) (comments : List Comment) (production : Production) :
    List FieldVisit :=
  (NodeType.lower config production).fields.zipIdx.map <| FieldVisit.ofField <|
    Commentary.annotateIf ⟨comments, config⟩ config.inlineAcceptMethods production

section Production

variable (config : Config) (comments : List Comment) (production : Production)

theorem visitBody_lower (indent : Indent) :
    Commentary.visitBody ⟨comments, config⟩ config indent (NodeType.lower config production) =
      (visitsOf config comments production).flatMap (FieldVisit.code config indent) := by
  rw [Commentary.visitBody, production_lower, visitsOf]
  refine fieldVisits_eq_flatMap config indent _ ?_
  rw [names_fields_lower, List.range_eq_range']
  rfl

theorem map_field_visitsOf :
    (visitsOf config comments production).map FieldVisit.field =
      (NodeType.lower config production).fields.map Field.name := by
  rw [visitsOf, List.map_map]
  exact map_zipIdx_fst Field.name _

theorem map_user_visitsOf :
    (visitsOf config comments production).map FieldVisit.user =
      (NodeType.lower config production).fields.map fun field =>
        Text.trimmedLines (field.code.getD "") := by
  rw [visitsOf, List.map_map]
  exact map_zipIdx_fst (fun field : Field => Text.trimmedLines (field.code.getD "")) _

variable {config comments production}

theorem comments_visitsOf_of_not_inline (hinline : config.inlineAcceptMethods = false) :
    ∀ visit ∈ visitsOf config comments production, visit.comments = [] := by
  intro visit hvisit
  obtain ⟨numbered, -, rfl⟩ := List.mem_map.1 hvisit
  rw [hinline]
  rfl

theorem map_comments_visitsOf (hinline : config.inlineAcceptMethods = true)
    {annotations : Annotations}
    (hknown : Commentary.annotate ⟨comments, config⟩ production = some annotations) :
    (visitsOf config comments production).map FieldVisit.comments =
      (List.range (NodeType.lower config production).fields.length).map annotations.shown := by
  rw [visitsOf, Commentary.annotateIf, hinline, if_pos rfl, hknown, List.map_map,
    List.range_eq_range', ← List.zipIdx_map_snd, List.map_map]
  rfl

/-- With comments in bodies, each comment inside a production with fields is in its body once. -/
theorem perm_comments_visitsOf (hinline : config.inlineAcceptMethods = true)
    (hfields : (NodeType.lower config production).fields ≠ []) :
    ∃ owner : Comment → Owner,
      ((visitsOf config comments production).flatMap FieldVisit.comments).Perm
        ((commentsIn comments production.span).map fun comment =>
          (owner comment, Commentary.line ⟨comments, config⟩ (owner comment) comment)) := by
  obtain ⟨name, span, body⟩ := production
  cases body with
  | code code => exact absurd rfl hfields
  | choices choices =>
      have hlength := length_fields_lower config name span choices
      have hsources : fieldSources choices ≠ [] := by
        rintro hnone
        rw [hnone] at hlength
        exact hfields (List.length_eq_zero_iff.1 hlength)
      have hknown := annotate_choices ⟨comments, config⟩ name span choices
      rw [if_pos hinline] at hknown
      have hplaced := subs_allBlocks ⟨comments, config⟩ span choices
      have hfields := fields_allBlocks ⟨comments, config⟩ span choices
      refine ⟨fun comment => ownerOf (fieldSlots choices) comment.span, ?_⟩
      rw [List.flatMap_def, map_comments_visitsOf hinline hknown, ← List.flatMap_def, hlength,
        ← hfields]
      refine Annotations.perm_shown ?_ (blocksByOwner_allBlocks ⟨comments, config⟩ span hsources)
      -- Sub-parts are in fields that there are.
      intro sub hsub
      have hfield := List.mem_map_of_mem (f := SubPart.field) hsub
      rw [hplaced] at hfield
      obtain ⟨located, hlocated, hnumber⟩ := List.mem_map.1 hfield
      obtain ⟨i, source, hsource, hi, -⟩ := (mem_numbered FieldSource.subs).1 hlocated
      obtain ⟨hlt, -⟩ := List.getElem?_eq_some_iff.1 hsource
      omega

end Production

/-- What a body visits is the fields of the node type: each once and in order, with its comments and
its code in front. -/
structure VisitsFields (config : Config) (comments : List Comment) (production : Production)
    (visits : List FieldVisit) : Prop where
  fields : visits.map FieldVisit.field =
    (NodeType.lower config production).fields.map Field.name
  once : (visits.map FieldVisit.field).Nodup
  /-- The lines of the user's code for a field, trimmed, and without the empty ones. -/
  user : visits.map FieldVisit.user =
    (NodeType.lower config production).fields.map fun field =>
      Text.trimmedLines (field.code.getD "")
  /-- Comments are in bodies only where they are wanted there. -/
  bare : config.inlineAcceptMethods = false → ∀ visit ∈ visits, visit.comments = []
  /-- The block of the field itself comes first, then those of its sub-parts in the order of their
  numbers. -/
  blocks : config.inlineAcceptMethods = true → ∀ annotations,
    Commentary.annotate ⟨comments, config⟩ production = some annotations →
      visits.map FieldVisit.comments = (List.range visits.length).map annotations.shown
  /-- Every comment inside the production is there once. -/
  comments : config.inlineAcceptMethods = true → visits ≠ [] → ∃ owner : Comment → Owner,
    (visits.flatMap FieldVisit.comments).Perm
      ((commentsIn comments production.span).map fun comment =>
        (owner comment, Commentary.line ⟨comments, config⟩ (owner comment) comment))

theorem visitsFields_visitsOf (config : Config) (comments : List Comment)
    (production : Production) :
    VisitsFields config comments production (visitsOf config comments production) where
  fields := map_field_visitsOf config comments production
  once := by
    rw [map_field_visitsOf]
    exact nodup_names_lower config production
  user := map_user_visitsOf config comments production
  bare := comments_visitsOf_of_not_inline
  blocks := by
    intro hinline annotations hknown
    rw [map_comments_visitsOf hinline hknown, visitsOf, List.length_map, List.length_zipIdx]
  comments := by
    intro hinline hvisits
    refine perm_comments_visitsOf hinline fun hnone => hvisits ?_
    rw [visitsOf, hnone]
    rfl

/-- The depth-first visitor of a grammar is made up of the visits of fields. -/
theorem method_share_visits (config : Config) (comments : List Comment) (production : Production) :
    (share config comments production).method =
      Commentary.visitDoc ⟨comments, config⟩ config .void (.ofLevel config.indentAmount 1)
        config.inlineAcceptMethods (NodeType.lower config production) ++
      depthFirstMethod config (.ofLevel config.indentAmount 1) (config.typeName production.name)
        ((visitsOf config comments production).flatMap
          (FieldVisit.code config ((Indent.ofLevel config.indentAmount 1).move 1))) := by
  rw [share, Commentary.share]
  dsimp only
  rw [visitBody_lower, name_lower]

end TreeSmith

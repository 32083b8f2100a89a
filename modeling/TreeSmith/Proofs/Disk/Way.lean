import TreeSmith.Proofs.Disk.Growth

/-!
# TreeSmith.Proofs.Disk.Way

**The directories that lead to a path are above it.** They are found by cutting its text off behind
a piece. That is an earlier place on the same way, because the text that is left has the pieces
that it was put together from (`Path.pieces_joinPieces`), and because what was cut off goes
somewhere (`Path.isAbove_of_mem_directories`).
-/

namespace TreeSmith

/-- Names lead down from one place to the other. -/
def Location.IsAbove (place other : Location) : Prop :=
  ∃ names, names ≠ [] ∧ other = ⟨place.names ++ names⟩

namespace Path

/-! ## Pieces and the text between them -/

theorem pieces_of_not_mem {cs : List Char} (h : '/' ∉ cs) : pieces cs = [cs] := by
  induction cs with
  | nil => rfl
  | cons c cs ih =>
      obtain ⟨hc, hcs⟩ := not_or.1 (mt List.mem_cons.2 h)
      rw [pieces, if_neg (Ne.symm hc), ih hcs]

theorem not_mem_of_mem_pieces {cs piece : List Char} (h : piece ∈ pieces cs) : '/' ∉ piece := by
  induction cs generalizing piece with
  | nil =>
      obtain rfl : piece = [] := List.mem_singleton.1 h
      exact List.not_mem_nil
  | cons c cs ih =>
      by_cases hc : c = '/'
      · rw [pieces, if_pos hc] at h
        rcases List.mem_cons.1 h with rfl | h
        · exact List.not_mem_nil
        · exact ih h
      · rw [pieces, if_neg hc] at h
        cases hpieces : pieces cs with
        | nil => exact absurd hpieces (pieces_ne_nil cs)
        | cons first rest =>
            simp only [hpieces, List.mem_cons] at h ih
            rcases h with rfl | h
            · exact fun hmem => (List.mem_cons.1 hmem).elim (fun he => hc he.symm)
                (ih (Or.inl rfl))
            · exact ih (Or.inr h)

/-- Pieces that were joined are found again. -/
theorem pieces_joinPieces {first : List Char} {rest : List (List Char)}
    (h : ∀ piece ∈ first :: rest, '/' ∉ piece) :
    pieces (joinPieces (first :: rest)) = first :: rest := by
  induction rest generalizing first with
  | nil => exact pieces_of_not_mem (h first List.mem_cons_self)
  | cons next rest ih =>
      obtain ⟨hfirst, hrest⟩ := List.forall_mem_cons.1 h
      rw [joinPieces, pieces_append_slash hfirst, ih hrest]
      exact List.cons_ne_nil _ _

/-! ## Paths put together from pieces -/

/-- The path with these pieces. -/
def ofPieces (parts : List (List Char)) : Path :=
  ⟨String.ofList (joinPieces parts)⟩

/-- The steps that pieces stand for. -/
def stepsOf (parts : List (List Char)) : List PathStep :=
  parts.filterMap fun piece => stepOf? (String.ofList piece)

theorem stepsOf_append (parts more : List (List Char)) :
    stepsOf (parts ++ more) = stepsOf parts ++ stepsOf more :=
  List.filterMap_append

theorem ofPieces_pieces (path : Path) : ofPieces (pieces path.text.toList) = path := by
  rw [ofPieces, joinPieces_pieces, String.ofList_toList]

section OfPieces

variable {first : List Char} {rest : List (List Char)}

theorem steps_ofPieces (h : ∀ piece ∈ first :: rest, '/' ∉ piece) :
    (ofPieces (first :: rest)).steps = stepsOf (first :: rest) := by
  rw [steps, ofPieces, String.toList_ofList, pieces_joinPieces h]
  rfl

/-- A path starts at the root if nothing is in front of its first slash. -/
theorem isAbsolute_ofPieces (h : '/' ∉ first) (hsome : first ≠ [] ∨ rest ≠ []) :
    (ofPieces (first :: rest)).isAbsolute = first.isEmpty := by
  rw [isAbsolute, ofPieces, String.toList_ofList]
  cases first with
  | nil =>
      cases rest with
      | nil => exact absurd rfl (hsome.resolve_left (not_not_intro rfl))
      | cons => rfl
  | cons c first =>
      have hc : ¬ c = '/' := fun he => h (he ▸ List.mem_cons_self)
      cases rest <;> simp [joinPieces, hc]

end OfPieces

/-! ## What stands on the way -/

section Way

variable {first : List Char} {before : List (List Char)} {directory : Path}

theorem mem_wayFrom (h : directory ∈ wayFrom first before) :
    ∃ kept, kept <:+ before ∧ (first ≠ [] ∨ kept ≠ []) ∧
      directory = ofPieces (first :: kept.reverse) := by
  induction before with
  | nil =>
      rw [wayFrom] at h
      split at h
      · exact absurd h List.not_mem_nil
      · rename_i hfirst
        rw [List.mem_singleton.1 h]
        exact ⟨[], List.nil_suffix, Or.inl fun he => hfirst (by rw [he]; rfl), rfl⟩
  | cons piece before ih =>
      rw [wayFrom] at h
      split at h
      · obtain ⟨kept, hkept, hrest⟩ := ih h
        exact ⟨kept, hkept.trans (List.suffix_cons _ _), hrest⟩
      · rcases List.mem_cons.1 h with rfl | h
        · exact ⟨_, List.suffix_rfl, Or.inr (List.cons_ne_nil _ _), rfl⟩
        · obtain ⟨kept, hkept, hrest⟩ := ih h
          exact ⟨kept, hkept.trans (List.suffix_cons _ _), hrest⟩

/-- A piece that goes somewhere is cut off for all paths on the way but the first. -/
theorem mem_tail_wayFrom (h : directory ∈ (wayFrom first before).tail) :
    ∃ piece inner kept, piece :: inner <:+ before ∧ isIdle piece = false ∧ kept <:+ inner ∧
      (first ≠ [] ∨ kept ≠ []) ∧ directory = ofPieces (first :: kept.reverse) := by
  induction before with
  | nil =>
      rw [wayFrom] at h
      split at h <;> exact absurd h List.not_mem_nil
  | cons piece before ih =>
      rw [wayFrom] at h
      split at h
      · obtain ⟨other, inner, kept, hinner, hrest⟩ := ih h
        exact ⟨other, inner, kept, hinner.trans (List.suffix_cons _ _), hrest⟩
      · rename_i hidle
        obtain ⟨kept, hkept, hrest⟩ := mem_wayFrom h
        exact ⟨piece, before, kept, List.suffix_rfl, by simpa using hidle, hkept, hrest⟩

end Way

theorem exists_entry_of_isIdle {piece : List Char} (h : isIdle piece = false)
    (hup : stepOf? (String.ofList piece) ≠ some .up) :
    ∃ name, stepOf? (String.ofList piece) = some (.entry name) := by
  unfold isIdle at h
  unfold stepOf? at hup ⊢
  have hempty : String.ofList piece ≠ "" := fun he => by
    rw [← String.toList_inj, String.toList_ofList] at he
    simp [he] at h
  have hdot : String.ofList piece ≠ "." := fun he => by
    rw [← String.toList_inj, String.toList_ofList] at he
    simp [he] at h
  rw [if_neg hempty, if_neg hdot] at hup ⊢
  split at hup
  · exact absurd rfl hup
  · rename_i hparent
    exact ⟨_, if_neg hparent⟩

/-- A path that goes on from another one, to an entry at least, has it above. -/
theorem isAbove_of_steps {directory path : Path} (hup : .up ∉ path.steps)
    (hstart : directory.isAbsolute = path.isAbsolute) {more : List PathStep}
    (hsteps : path.steps = directory.steps ++ more) {name : String} (hname : .entry name ∈ more)
    (working : Location) : (directory.place working).IsAbove (path.place working) := by
  have hmore : .up ∉ more := fun hmem => hup (by rw [hsteps]; exact List.mem_append_right _ hmem)
  obtain ⟨names, hnames, hplace⟩ := foldl_step_of_not_mem hmore (directory.place working)
  refine ⟨names, ?_, ?_⟩
  · rintro rfl
    have hnone := List.filter_eq_nil_iff.1 hnames (.entry name) hname
    simp at hnone
  · rw [← hplace, place, place, hsteps, List.foldl_append, start, start, hstart]

/-- **The directories that lead to a path are above it.** -/
theorem isAbove_of_mem_directories {path directory : Path} (hup : .up ∉ path.steps)
    (h : directory ∈ path.directories) (working : Location) :
    (directory.place working).IsAbove (path.place working) := by
  unfold directories way at h
  have hpieces : ∀ piece ∈ pieces path.text.toList, '/' ∉ piece :=
    fun piece hpiece => not_mem_of_mem_pieces hpiece
  have hpath := ofPieces_pieces path
  cases hsplit : pieces path.text.toList with
  | nil => exact absurd hsplit (pieces_ne_nil _)
  | cons first body =>
      rw [hsplit] at h hpieces hpath
      obtain ⟨piece, inner, kept, ⟨behind, hbehind⟩, hidle, ⟨between, hbetween⟩, hsome, rfl⟩ :=
        mem_tail_wayFrom h
      -- The pieces of the path are those that are kept, some more, one that goes somewhere, and
      -- the rest.
      have hbody : body = kept.reverse ++ (between.reverse ++ piece :: behind.reverse) := by
        rw [← List.reverse_reverse body, ← hbehind, ← hbetween]
        simp
      have hkept : ∀ part ∈ first :: kept.reverse, '/' ∉ part := fun part hpart =>
        hpieces part (by
          rw [hbody, ← List.cons_append]
          exact List.mem_append_left _ hpart)
      have hfirst := hpieces first List.mem_cons_self
      have hsteps : path.steps = (ofPieces (first :: kept.reverse)).steps ++
          stepsOf (between.reverse ++ piece :: behind.reverse) := by
        rw [steps_ofPieces hkept, ← stepsOf_append, List.cons_append, ← hbody,
          ← steps_ofPieces hpieces, hpath]
      have hpiece : piece ∈ between.reverse ++ piece :: behind.reverse :=
        List.mem_append_right _ List.mem_cons_self
      obtain ⟨name, hname⟩ := exists_entry_of_isIdle hidle fun hparent => hup (by
        rw [hsteps]
        exact List.mem_append_right _ (List.mem_filterMap.2 ⟨piece, hpiece, hparent⟩))
      refine isAbove_of_steps hup ?_ hsteps (List.mem_filterMap.2 ⟨piece, hpiece, hname⟩) working
      rw [← hpath, isAbsolute_ofPieces hfirst, isAbsolute_ofPieces hfirst]
      · exact Or.inr (by rw [hbody]; simp)
      · exact hsome.imp id fun hne => by simpa using hne

end Path

end TreeSmith

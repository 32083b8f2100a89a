import Mathlib.Data.List.Infix
import TreeSmith.Java.Identifier
import TreeSmith.Text.Blank

/-!
# TreeSmith.Proofs.Text.Closing

**Where a block comment ends**: at the first `*/` in it. Two texts one after the other have one if
either has, or if the first ends in the star and the second starts with the slash
(`closes_append`). White space is neither, so trimming a text does not change whether it has one.
-/

namespace TreeSmith.Text

/-- The text has the end of a block comment in it. -/
def Closes (cs : List Char) : Prop :=
  ['*', '/'] <:+: cs

instance (cs : List Char) : Decidable (Closes cs) :=
  inferInstanceAs (Decidable (['*', '/'] <:+: cs))

theorem closes_append {as bs : List Char} :
    Closes (as ++ bs) ↔
      Closes as ∨ Closes bs ∨ (as.getLast? = some '*' ∧ bs.head? = some '/') := by
  unfold Closes
  rw [List.infix_append_iff_ne_nil]
  -- The two marks can only be parted in one way, one on each side.
  have hparted : (∃ one two, one ≠ [] ∧ two ≠ [] ∧ ['*', '/'] = one ++ two ∧ one <:+ as ∧
      two <+: bs) ↔ as.getLast? = some '*' ∧ bs.head? = some '/' := by
    constructor
    · rintro ⟨one, two, hone, htwo, heq, ⟨before, rfl⟩, ⟨after, rfl⟩⟩
      obtain ⟨c, one, rfl⟩ := List.exists_cons_of_ne_nil hone
      obtain ⟨d, two, rfl⟩ := List.exists_cons_of_ne_nil htwo
      cases one with
      | nil =>
          obtain ⟨rfl, rfl, rfl⟩ : '*' = c ∧ '/' = d ∧ [] = two := by simpa using heq
          simp
      | cons e one => simp at heq
    · rintro ⟨hlast, hhead⟩
      obtain ⟨before, rfl⟩ := List.getLast?_eq_some_iff.1 hlast
      obtain ⟨after, rfl⟩ := List.head?_eq_some_iff.1 hhead
      exact ⟨['*'], ['/'], by simp, by simp, rfl, ⟨before, rfl⟩, ⟨after, rfl⟩⟩
  rw [hparted]

theorem not_closes_of_not_mem_star {cs : List Char} (h : '*' ∉ cs) : ¬ Closes cs :=
  fun hcloses => h (hcloses.mem List.mem_cons_self)

/-- What has no star in it can be left out in front. -/
theorem closes_append_of_not_mem_star {as bs : List Char} (h : '*' ∉ as) :
    Closes (as ++ bs) ↔ Closes bs := by
  rw [closes_append]
  refine ⟨?_, fun hbs => Or.inr (Or.inl hbs)⟩
  rintro (has | hbs | ⟨hlast, -⟩)
  · exact absurd has (not_closes_of_not_mem_star h)
  · exact hbs
  · exact absurd (List.mem_of_getLast? hlast) h

/-- What has no slash in it can be left out behind. -/
theorem closes_append_of_not_mem_slash {as bs : List Char} (h : '/' ∉ bs) :
    Closes (as ++ bs) ↔ Closes as := by
  rw [closes_append]
  refine ⟨?_, Or.inl⟩
  rintro (has | hbs | ⟨-, hhead⟩)
  · exact has
  · exact absurd (hbs.mem (by simp)) h
  · exact absurd (List.mem_of_head? hhead) h

/-! ## Trimming -/

/-- What is cut off at both ends has the property that it is cut off for. -/
theorem exists_stripEnds (p : Char → Bool) (cs : List Char) :
    ∃ before after, cs = before ++ stripEnds p cs ++ after ∧ (∀ c ∈ before, p c = true) ∧
      ∀ c ∈ after, p c = true := by
  refine ⟨cs.takeWhile p, ((cs.dropWhile p).reverse.takeWhile p).reverse, ?_, ?_, ?_⟩
  · rw [List.append_assoc, stripEnds, ← List.reverse_append, List.takeWhile_append_dropWhile,
      List.reverse_reverse, List.takeWhile_append_dropWhile]
  · exact List.all_eq_true.1 List.all_takeWhile
  · exact fun c hc => List.all_eq_true.1 List.all_takeWhile c (List.mem_reverse.1 hc)

theorem closes_trim (text : String) : Closes (trim text).toList ↔ Closes text.toList := by
  obtain ⟨before, after, heq, hbefore, hafter⟩ := exists_stripEnds isBlank text.toList
  have hstar : '*' ∉ before := fun h => absurd (hbefore _ h) (by decide)
  have hslash : '/' ∉ after := fun h => absurd (hafter _ h) (by decide)
  rw [trim, String.toList_ofList]
  conv_rhs => rw [heq]
  rw [closes_append_of_not_mem_slash hslash, closes_append_of_not_mem_star hstar]

/-! ## Texts without an end of a comment -/

/-- The text has no end of a block comment in it. -/
def Unclosed (text : String) : Prop :=
  ¬ Closes text.toList

instance (text : String) : Decidable (Unclosed text) :=
  inferInstanceAs (Decidable (¬ Closes text.toList))

@[simp] theorem unclosed_append {a b : String} :
    Unclosed (a ++ b) ↔ Unclosed a ∧ Unclosed b ∧
      ¬ (a.toList.getLast? = some '*' ∧ b.toList.head? = some '/') := by
  rw [Unclosed, String.toList_append, closes_append, not_or, not_or]
  exact Iff.rfl

/-- Numbers are written with digits. -/
theorem not_mem_star_repr (n : Nat) : '*' ∉ n.repr.toList := by
  intro h
  rw [Nat.repr, String.toList_ofList] at h
  exact absurd (Nat.isDigit_of_mem_toDigits (by decide) (by decide) h) (by decide)

@[simp] theorem unclosed_repr (n : Nat) : Unclosed n.repr :=
  not_closes_of_not_mem_star (not_mem_star_repr n)

/-- An identifier has no star in it. -/
theorem unclosed_of_isIdentifier {name : String} (h : Java.isIdentifier name = true) :
    Unclosed name := by
  refine not_closes_of_not_mem_star fun hstar => ?_
  exact absurd (Java.continuesIdentifier_of_mem h hstar) (by decide)

end TreeSmith.Text

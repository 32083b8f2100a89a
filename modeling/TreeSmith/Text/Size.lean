/-!
# TreeSmith.Text.Size

**Byte lengths of texts.** Every offset, span and column in the library counts the bytes of the
UTF-8 form, while every reader works on characters. `size` is the bridge: it is additive over
`++`, so an offset is always the size of the characters before it.
-/

namespace TreeSmith.Text

/-- The number of bytes of `cs` in UTF-8. -/
def size : List Char → Nat
  | [] => 0
  | c :: cs => c.utf8Size + size cs

@[simp] theorem size_nil : size [] = 0 := rfl

@[simp] theorem size_cons (c : Char) (cs : List Char) : size (c :: cs) = c.utf8Size + size cs :=
  rfl

@[simp] theorem size_append (as bs : List Char) : size (as ++ bs) = size as + size bs := by
  induction as with
  | nil => simp
  | cons a as ih => simp [ih, Nat.add_assoc]

/-- Every character has at least one byte. -/
theorem length_le_size (cs : List Char) : cs.length ≤ size cs := by
  induction cs with
  | nil => simp
  | cons c cs ih =>
    have := c.utf8Size_pos
    simp only [List.length_cons, size_cons]
    omega

/-- The characters that fit whole into the first `bytes` bytes of a text. When `bytes` ends a
character these are exactly the characters before that offset. -/
def takeBytes : Nat → List Char → List Char
  | _, [] => []
  | bytes, c :: cs =>
    if c.utf8Size ≤ bytes then c :: takeBytes (bytes - c.utf8Size) cs else []

/-- Cutting at the size of a first part gives that part back. -/
@[simp] theorem takeBytes_size_append (as bs : List Char) :
    takeBytes (size as) (as ++ bs) = as := by
  induction as with
  | nil =>
    cases bs with
    | nil => rfl
    | cons b bs =>
      have : ¬ b.utf8Size ≤ 0 := by have := b.utf8Size_pos; omega
      simp [takeBytes, this]
  | cons a as ih => simp [takeBytes, ih]

end TreeSmith.Text

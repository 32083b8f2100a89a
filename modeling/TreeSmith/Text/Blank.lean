import TreeSmith.Text.Lines

/-!
# TreeSmith.Text.Blank

**White space and trimming.** `isBlank` is the Unicode property White_Space: the characters that
separate tokens, and the ones cut from both ends of a comment or of a code fragment.
-/

namespace TreeSmith.Text

/-- The code points with the Unicode property White_Space. -/
def blanks : List Nat :=
  [0x9, 0xa, 0xb, 0xc, 0xd, 0x20, 0x85, 0xa0, 0x1680, 0x2000, 0x2001, 0x2002, 0x2003, 0x2004,
   0x2005, 0x2006, 0x2007, 0x2008, 0x2009, 0x200a, 0x2028, 0x2029, 0x202f, 0x205f, 0x3000]

/-- Has `c` the Unicode property White_Space? -/
def isBlank (c : Char) : Bool :=
  blanks.contains c.toNat

/-- The class of white space that core knows, ASCII only, is part of this one. -/
theorem isBlank_of_isWhitespace {c : Char} (h : c.isWhitespace = true) : isBlank c = true := by
  simp only [Char.isWhitespace, Bool.or_eq_true, decide_eq_true_eq] at h
  rcases h with ((rfl | rfl) | rfl) | rfl <;> rfl

/-- A list without its longest first part whose members satisfy `p`, and without its longest
last part of that kind. -/
def stripEnds (p : Char → Bool) (cs : List Char) : List Char :=
  ((cs.dropWhile p).reverse.dropWhile p).reverse

/-- A text without the white space at both of its ends. -/
def trim (text : String) : String :=
  String.ofList (stripEnds isBlank text.toList)

/-- The lines of `text` without surrounding white space, blank ones left out. Carriage returns
before a line break are white space, so both kinds of line ends give the same lines. -/
def trimmedLines (text : String) : List String :=
  ((lines text.toList).map fun line => String.ofList (stripEnds isBlank line)).filter
    fun line => !line.isEmpty

end TreeSmith.Text

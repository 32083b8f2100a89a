import TreeSmith.Text.Size

/-!
# TreeSmith.Text.LineColumn

**The line and column of a byte offset**, both counted from one. Columns count bytes, like the
offsets they come from; an offset past the end is the end.
-/

namespace TreeSmith.Text

/-- A line and a column, both counted from one. -/
structure LineColumn where
  line : Nat
  column : Nat
  deriving DecidableEq, Repr

/-- The line and column behind some characters. -/
def behind (before : List Char) : LineColumn where
  line := before.count '\n' + 1
  column := size (before.reverse.takeWhile (· != '\n')) + 1

/-- The line and column of a byte offset that ends a character of `text`, or lies past it. -/
def lineColumn (text : List Char) (offset : Nat) : LineColumn :=
  behind (takeBytes offset text)

end TreeSmith.Text

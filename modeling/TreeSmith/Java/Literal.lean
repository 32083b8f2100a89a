/-!
# TreeSmith.Java.Literal

**Texts inside Java string literals.** A backslash, a double quote, the two line ends and the tab
are escaped; every other character stands for itself.
-/

namespace TreeSmith.Java

/-- How a character is written inside a string literal. -/
def escapeChar (c : Char) : List Char :=
  if c = '\\' then ['\\', '\\']
  else if c = '"' then ['\\', '"']
  else if c = '\n' then ['\\', 'n']
  else if c = '\r' then ['\\', 'r']
  else if c = '\t' then ['\\', 't']
  else [c]

/-- How a text is written inside a string literal. -/
def escape (text : String) : String :=
  String.ofList (text.toList.flatMap escapeChar)

end TreeSmith.Java

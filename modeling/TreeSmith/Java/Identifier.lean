import TreeSmith.Text.Alphabetic
import TreeSmith.Text.Numeric

/-!
# TreeSmith.Java.Identifier

**Names that Java accepts for a class.** An identifier starts with a letter, an underscore or a
dollar sign, goes on with those and with numeric characters, and is no reserved word.
-/

namespace TreeSmith.Java

/-- The reserved words, the literals among them included. -/
def reservedWords : List String :=
  ["abstract", "assert", "boolean", "break", "byte", "case", "catch", "char", "class", "const",
   "continue", "default", "do", "double", "else", "enum", "extends", "false", "final", "finally",
   "float", "for", "goto", "if", "implements", "import", "instanceof", "int", "interface", "long",
   "native", "new", "null", "package", "private", "protected", "public", "return", "short",
   "static", "strictfp", "super", "switch", "synchronized", "this", "throw", "throws",
   "transient", "true", "try", "void", "volatile", "while"]

/-- May an identifier start with `c`? -/
def startsIdentifier (c : Char) : Bool :=
  Text.isAlphabetic c || c == '_' || c == '$'

/-- May an identifier go on with `c`? -/
def continuesIdentifier (c : Char) : Bool :=
  startsIdentifier c || Text.isNumeric c

/-- Is `name` an identifier? -/
def isIdentifier (name : String) : Bool :=
  match name.toList with
  | [] => false
  | c :: cs =>
    startsIdentifier c && cs.all continuesIdentifier && !reservedWords.contains name

/-- An identifier may go on with any of its characters. -/
theorem continuesIdentifier_of_mem {name : String} (h : isIdentifier name = true) {c : Char}
    (hc : c ∈ name.toList) : continuesIdentifier c = true := by
  unfold isIdentifier at h
  cases hname : name.toList with
  | nil =>
      rw [hname] at hc
      cases hc
  | cons first rest =>
      rw [hname] at h hc
      simp only [Bool.and_eq_true, List.all_eq_true] at h
      obtain ⟨⟨hfirst, hrest⟩, -⟩ := h
      rcases List.mem_cons.1 hc with rfl | hc
      · rw [continuesIdentifier, hfirst, Bool.true_or]
      · exact hrest c hc

/-- An identifier is no reserved word. -/
theorem not_mem_reservedWords {name : String} (h : isIdentifier name = true) :
    name ∉ reservedWords := by
  intro hmem
  unfold isIdentifier at h
  split at h
  · cases h
  · simp [hmem] at h

end TreeSmith.Java

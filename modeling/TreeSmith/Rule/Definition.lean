import TreeSmith.Rule.Basic
import TreeSmith.Rule.Token

/-!
# TreeSmith.Rule.Definition

**Definitions read from tokens**, by recursive descent.

```text
definitions  =  (ident '=' rule)*
rule         =  sequence ('|' sequence)*
sequence     =  atom atom*
atom         =  ident ':' atom  |  (ident | literal | '(' rule ')') ('?' | '*')?
```

Design points:

* An identifier that an equals sign follows starts the next definition, so it is no atom.
* Every reader returns the tokens it left together with the proof that they are fewer. That is
  what the recursion ends by, and it is all that a caller has to know.
* A name that is defined twice is found at its second definition; a name that is nowhere defined
  is found once the whole text has been read.
-/

namespace TreeSmith

/-- Fewer tokens than `tokens`. -/
abbrev Fewer (tokens : List RuleToken) :=
  { rest : List RuleToken // rest.length < tokens.length }

/-- No more tokens than `tokens`. -/
abbrev NoMore (tokens : List RuleToken) :=
  { rest : List RuleToken // rest.length ≤ tokens.length }

/-- A fault at the next token, which is missing at the end of the text. -/
def faultAtNext (fault : RuleFault) : List RuleToken → RuleError
  | [] => ⟨.unexpectedEnd, none⟩
  | token :: _ => ⟨fault, some token.place⟩

/-- Reads the closing parenthesis of a group. -/
def readClose (tokens : List RuleToken) : Except RuleError (Fewer tokens) :=
  match tokens with
  | ⟨.closeParen, _⟩ :: rest => .ok ⟨rest, by simp⟩
  | tokens => .error (faultAtNext .expectedCloseParen tokens)

/-- Applies the postfix operator that follows an atom, if there is one. -/
def readPostfix (rule : Rule) (tokens : List RuleToken) : Rule × NoMore tokens :=
  match tokens with
  | ⟨.question, _⟩ :: rest => (.opt rule, ⟨rest, by simp⟩)
  | ⟨.star, _⟩ :: rest => (.rep rule, ⟨rest, by simp⟩)
  | tokens => (rule, ⟨tokens, Nat.le_refl _⟩)

mutual

/-- Reads alternatives separated by bars; a single one is itself. -/
def readRule (tokens : List RuleToken) : Except RuleError (Rule × Fewer tokens) :=
  match tokens with
  | ⟨.pipe, place⟩ :: _ => .error ⟨.leadingPipe, some place⟩
  | tokens => do
    let (first, ⟨rest, _hfirst⟩) ← readSequence tokens
    let (others, ⟨rest, _⟩) ← readAlternatives rest
    return (if others.isEmpty then first else .alt (first :: others), ⟨rest, by omega⟩)
termination_by (tokens.length, 3)

/-- Reads the alternatives that follow the first one, each after its bar. -/
def readAlternatives (tokens : List RuleToken) :
    Except RuleError (List Rule × NoMore tokens) :=
  match tokens with
  | ⟨.pipe, _⟩ :: rest => do
    let (first, ⟨rest', _⟩) ← readSequence rest
    let (others, ⟨rest'', _⟩) ← readAlternatives rest'
    return (first :: others, ⟨rest'', by simp only [List.length_cons]; omega⟩)
  | tokens => .ok ([], ⟨tokens, Nat.le_refl _⟩)
termination_by (tokens.length, 0)

/-- Reads one atom and all that follow it; a single one is itself. -/
def readSequence (tokens : List RuleToken) : Except RuleError (Rule × Fewer tokens) := do
  let (first, ⟨rest, _hfirst⟩) ← readAtom tokens
  let (others, ⟨rest, _⟩) ← readAtoms rest
  return (if others.isEmpty then first else .seq (first :: others), ⟨rest, by omega⟩)
termination_by (tokens.length, 2)

/-- Reads as many atoms as there are. -/
def readAtoms (tokens : List RuleToken) : Except RuleError (List Rule × NoMore tokens) := do
  match ← readAtom? tokens with
  | none => return ([], ⟨tokens, Nat.le_refl _⟩)
  | some (first, ⟨rest, _⟩) =>
    let (others, ⟨rest', _⟩) ← readAtoms rest
    return (first :: others, ⟨rest', by omega⟩)
termination_by (tokens.length, 1)

/-- Reads an atom where one is required. -/
def readAtom (tokens : List RuleToken) : Except RuleError (Rule × Fewer tokens) := do
  match ← readAtom? tokens with
  | some result => return result
  | none => .error (faultAtNext .unexpectedToken tokens)
termination_by (tokens.length, 1)

/-- Reads an atom if one starts here. -/
def readAtom? (tokens : List RuleToken) : Except RuleError (Option (Rule × Fewer tokens)) :=
  match tokens with
  | ⟨.ident _, _⟩ :: ⟨.eq, _⟩ :: _ => .ok none
  | ⟨.ident label, _⟩ :: ⟨.colon, _⟩ :: rest => do
    let (rule, ⟨rest', _⟩) ← readAtom rest
    return some (.labeled label rule, ⟨rest', by simp only [List.length_cons]; omega⟩)
  | ⟨.ident name, _⟩ :: rest =>
    let (rule, ⟨rest', _⟩) := readPostfix (.node name) rest
    .ok (some (rule, ⟨rest', by simp only [List.length_cons]; omega⟩))
  | ⟨.literal image, _⟩ :: rest =>
    let (rule, ⟨rest', _⟩) := readPostfix (.token image) rest
    .ok (some (rule, ⟨rest', by simp only [List.length_cons]; omega⟩))
  | ⟨.openParen, _⟩ :: rest => do
    let (inner, ⟨rest', _⟩) ← readRule rest
    let ⟨rest'', _⟩ ← readClose rest'
    let (rule, ⟨rest3, _⟩) := readPostfix inner rest''
    return some (rule, ⟨rest3, by simp only [List.length_cons]; omega⟩)
  | _ => .ok none
termination_by (tokens.length, 0)

end

/-! ## All definitions of a text -/

/-- Reads definitions to the end; `defined` are the names defined so far. -/
def readDefinitions (defined : List String) (tokens : List RuleToken) :
    Except RuleError (List Definition) :=
  match tokens with
  | [] => .ok []
  | ⟨.ident name, place⟩ :: ⟨.eq, _⟩ :: rest =>
    if defined.contains name then .error ⟨.duplicateRule name, some place⟩
    else do
      let (rule, ⟨rest', _⟩) ← readRule rest
      let others ← readDefinitions (name :: defined) rest'
      return ⟨name, rule⟩ :: others
  | ⟨.ident _, _⟩ :: rest => .error (faultAtNext .expectedEq rest)
  | ⟨_, place⟩ :: _ => .error ⟨.expectedIdent, some place⟩
termination_by tokens.length

/-- The first name that the definitions mention and none of them defines. -/
def undefinedName? (definitions : List Definition) : Option String :=
  (definitions.flatMap fun definition => definition.rule.references).find? fun name =>
    !definitions.any (·.name == name)

/-- Reads the definitions of a text, in the order of the text. -/
def readNotation (text : String) : Except RuleError (List Definition) := do
  let tokens ← ruleTokens text
  let definitions ← readDefinitions [] tokens
  match undefinedName? definitions with
  | some name => .error ⟨.undefinedNode name, none⟩
  | none => return definitions

end TreeSmith

import TreeSmith.Config

/-!
# TreeSmith.CommandLine.Arguments

**What can be said on the command line**: one grammar, options with a value, and flags.

Design points:

* An option is a value of `ValueOption`; its name and what it sets are functions of it, so no two
  options can be mixed up in one of them and not in the other.
* What an option sets is applied to arguments that hold the defaults. An option that is not given
  therefore leaves its default.
* The options about the generated code are a record of their own, `Options`, with a table of
  defaults of its own. They become the settings of a pass in one step (`Options.config`), which
  knows no defaults: that both tables agree is a fact about them.
-/

namespace TreeSmith

/-- Why arguments are not accepted, or what they ask for instead of a run. -/
inductive UsageError where
  | unknownArgument
  | missingRequiredArgument
  | argumentConflict
  | tooManyValues
  | invalidValue
  | valueValidation
  | displayHelp
  | displayVersion
  deriving DecidableEq, Repr

/-- What the options say about the generated code. -/
structure Options where
  namePrefix : String := ""
  nameSuffix : String := ""
  parentPointer : Bool := false
  javadoc : Bool := false
  debugComments : Bool := false
  inlineAccept : Bool := false
  variadic : Bool := false
  nodeInterface : String := "INode"
  superclass : Option String := none
  nodeToken : String := "NodeToken"
  retArguVisitor : String := "IRetArguVisitor"
  retVisitor : String := "IRetVisitor"
  voidArguVisitor : String := "IVoidArguVisitor"
  voidVisitor : String := "IVoidVisitor"
  retType : String := "R"
  arguType : String := "A"
  serialUid : Nat := 148
  indent : Nat := 2
  nodesPackage : Option String := none
  visitorPackage : Option String := none
  deriving DecidableEq, Repr

/-- The options as settings of a pass. -/
def Options.config (options : Options) : Config where
  namePrefix := options.namePrefix
  nameSuffix := options.nameSuffix
  parentPointer := options.parentPointer
  javadocComments := options.javadoc
  debugComments := options.debugComments
  inlineAcceptMethods := options.inlineAccept
  variadicArgs := options.variadic
  nodeInterface := options.nodeInterface
  nodesSuperclass := options.superclass
  nodeToken := options.nodeToken
  retArguVisitor := options.retArguVisitor
  retVisitor := options.retVisitor
  voidArguVisitor := options.voidArguVisitor
  voidVisitor := options.voidVisitor
  retType := options.retType
  arguType := options.arguType
  serialUid := options.serialUid
  indentAmount := options.indent
  nodesPackage := options.nodesPackage
  visitorPackage := options.visitorPackage

/-- What the arguments say. -/
structure Arguments where
  /-- The path of the grammar. It has no default: arguments without it are refused. -/
  grammar : String := ""
  nodesDir : String := "syntaxtree"
  visitorDir : String := "visitor"
  /-- Only checks whether files are up to date. -/
  check : Bool := false
  /-- How often more log was asked for. -/
  verbose : Nat := 0
  options : Options := {}
  deriving DecidableEq, Repr

/-- The settings of the pass that is asked for. -/
def Arguments.config (arguments : Arguments) : Config :=
  arguments.options.config

/-- The options that take a value. -/
inductive ValueOption where
  | nodesDir
  | visitorDir
  | namePrefix
  | nameSuffix
  | nodeInterface
  | superclass
  | nodeToken
  | retArguVisitor
  | retVisitor
  | voidArguVisitor
  | voidVisitor
  | retType
  | arguType
  | serialUid
  | indent
  | nodesPackage
  | visitorPackage
  deriving DecidableEq, Repr

/-- The flags. -/
inductive Flag where
  | check
  | verbose
  | parentPointer
  | javadoc
  | debugComments
  | inlineAccept
  | variadic
  | help
  | version
  deriving DecidableEq, Repr

namespace ValueOption

/-- All options that take a value. -/
def all : List ValueOption :=
  [nodesDir, visitorDir, namePrefix, nameSuffix, nodeInterface, superclass, nodeToken,
    retArguVisitor, retVisitor, voidArguVisitor, voidVisitor, retType, arguType, serialUid,
    indent, nodesPackage, visitorPackage]

/-- The name of the option behind its two dashes. -/
def longName : ValueOption → String
  | nodesDir => "nodes-dir"
  | visitorDir => "visitor-dir"
  | namePrefix => "prefix"
  | nameSuffix => "suffix"
  | nodeInterface => "node-interface"
  | superclass => "superclass"
  | nodeToken => "node-token"
  | retArguVisitor => "ret-argu-visitor"
  | retVisitor => "ret-visitor"
  | voidArguVisitor => "void-argu-visitor"
  | voidVisitor => "void-visitor"
  | retType => "ret-type"
  | arguType => "argu-type"
  | serialUid => "serial-uid"
  | indent => "indent"
  | nodesPackage => "nodes-package"
  | visitorPackage => "visitor-package"

/-- The option of that name. -/
def ofName? (name : String) : Option ValueOption :=
  all.find? (·.longName == name)

end ValueOption

namespace Flag

/-- All flags. -/
def all : List Flag :=
  [check, verbose, parentPointer, javadoc, debugComments, inlineAccept, variadic, help, version]

/-- The name of the flag behind its two dashes. -/
def longName : Flag → String
  | check => "check"
  | verbose => "verbose"
  | parentPointer => "parent-pointer"
  | javadoc => "javadoc"
  | debugComments => "debug-comments"
  | inlineAccept => "inline-accept"
  | variadic => "variadic"
  | help => "help"
  | version => "version"

/-- The letter of the flag behind a single dash, for the few that have one. -/
def letter? : Flag → Option Char
  | verbose => some 'v'
  | help => some 'h'
  | version => some 'V'
  | _ => none

/-- The flag of that name. -/
def ofName? (name : String) : Option Flag :=
  all.find? (·.longName == name)

/-- The flag of that letter. -/
def ofLetter? (letter : Char) : Option Flag :=
  all.find? (·.letter? == some letter)

end Flag

/-! ## Values -/

/-- The greatest number that an option takes. -/
def maxNumber : Nat := UInt64.size - 1

/-- The value of decimal digits. -/
def digitsValue (digits : List Char) : Nat :=
  digits.foldl (fun n c => n * 10 + (c.toNat - '0'.toNat)) 0

/-- A number: decimal digits, perhaps behind a plus sign, of 64 bits at most. -/
def parseNumber (text : String) : Except UsageError Nat :=
  let digits :=
    match text.toList with
    | '+' :: digits => digits
    | digits => digits
  if !digits.isEmpty && digits.all Char.isDigit && digitsValue digits ≤ maxNumber then
    .ok (digitsValue digits)
  else .error .valueValidation

/-- A path: any text but the empty one. -/
def parsePath (text : String) : Except UsageError String :=
  if text.isEmpty then .error .invalidValue else .ok text

/-! ## What an argument sets -/

/-- Sets what an option is for. -/
def ValueOption.set (option : ValueOption) (value : String) (arguments : Arguments) :
    Except UsageError Arguments :=
  let now := arguments.options
  let say (options : Options) : Except UsageError Arguments := .ok { arguments with options }
  match option with
  | nodesDir => do return { arguments with nodesDir := ← parsePath value }
  | visitorDir => do return { arguments with visitorDir := ← parsePath value }
  | namePrefix => say { now with namePrefix := value }
  | nameSuffix => say { now with nameSuffix := value }
  | nodeInterface => say { now with nodeInterface := value }
  | superclass => say { now with superclass := some value }
  | nodeToken => say { now with nodeToken := value }
  | retArguVisitor => say { now with retArguVisitor := value }
  | retVisitor => say { now with retVisitor := value }
  | voidArguVisitor => say { now with voidArguVisitor := value }
  | voidVisitor => say { now with voidVisitor := value }
  | retType => say { now with retType := value }
  | arguType => say { now with arguType := value }
  | serialUid => do say { now with serialUid := ← parseNumber value }
  | indent => do say { now with indent := ← parseNumber value }
  | nodesPackage => say { now with nodesPackage := some value }
  | visitorPackage => say { now with visitorPackage := some value }

/-- How much log can be asked for. -/
def maxVerbose : Nat := 255

/-- Sets what a flag is for. Two flags end the reading of arguments. -/
def Flag.set (flag : Flag) (arguments : Arguments) : Except UsageError Arguments :=
  let now := arguments.options
  let say (options : Options) : Except UsageError Arguments := .ok { arguments with options }
  match flag with
  | check => .ok { arguments with check := true }
  | verbose => .ok { arguments with verbose := min maxVerbose (arguments.verbose + 1) }
  | parentPointer => say { now with parentPointer := true }
  | javadoc => say { now with javadoc := true }
  | debugComments => say { now with debugComments := true }
  | inlineAccept => say { now with inlineAccept := true }
  | variadic => say { now with variadic := true }
  | help => .error .displayHelp
  | version => .error .displayVersion

end TreeSmith

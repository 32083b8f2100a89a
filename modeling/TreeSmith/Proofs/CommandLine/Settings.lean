import Mathlib
import TreeSmith.CommandLine.Reader
import TreeSmith.Proofs.Lexical.Munched

/-!
# TreeSmith.Proofs.CommandLine.Settings

**Settings written as arguments, and read again.** Every setting is written as one argument of its
own: an option with its value attached, or a flag. No two of them set the same thing, so what
arguments have been read says which options have been taken over, in whatever order they came
(`Reading.HasTaken`). All others are still at their defaults.

The options that were read become settings by a step of its own. It leads back to the settings that
were written, and to the default settings where nothing was (`config_keeping_options`). Main
statement: `readArguments_written`.
-/

namespace TreeSmith

/-! ## Options as arguments -/

/-- What an argument can set. -/
inductive Setting where
  | option (option : ValueOption)
  | flag (flag : Flag)
  deriving DecidableEq, Repr

/-- The value of an option, if it has one. Directories have none here. -/
def ValueOption.valueIn (options : Options) : ValueOption → Option String
  | nodesDir => none
  | visitorDir => none
  | namePrefix => some options.namePrefix
  | nameSuffix => some options.nameSuffix
  | nodeInterface => some options.nodeInterface
  | superclass => options.superclass
  | nodeToken => some options.nodeToken
  | retArguVisitor => some options.retArguVisitor
  | retVisitor => some options.retVisitor
  | voidArguVisitor => some options.voidArguVisitor
  | voidVisitor => some options.voidVisitor
  | retType => some options.retType
  | arguType => some options.arguType
  | serialUid => some (toString options.serialUid)
  | indent => some (toString options.indent)
  | nodesPackage => options.nodesPackage
  | visitorPackage => options.visitorPackage

/-- Is the flag on? -/
def Flag.isOn (options : Options) : Flag → Bool
  | parentPointer => options.parentPointer
  | javadoc => options.javadoc
  | debugComments => options.debugComments
  | inlineAccept => options.inlineAccept
  | variadic => options.variadic
  | check => false
  | verbose => false
  | help => false
  | version => false

namespace Setting

/-- The settings of a pass. -/
def all : List Setting :=
  [option .namePrefix, option .nameSuffix, flag .parentPointer, flag .javadoc, flag .debugComments,
    flag .inlineAccept, flag .variadic, option .nodeInterface, option .superclass,
    option .nodeToken, option .retArguVisitor, option .retVisitor, option .voidArguVisitor,
    option .voidVisitor, option .retType, option .arguType, option .serialUid, option .indent,
    option .nodesPackage, option .visitorPackage]

/-- The name of a setting with its two dashes. -/
def name : Setting → String
  | option o => "--" ++ o.longName
  | flag f => "--" ++ f.longName

/-- A setting as an argument. Nothing is written for an absent value or a flag that is off. -/
def argument? (options : Options) : Setting → Option String
  | option o => (o.valueIn options).map fun value => "--" ++ o.longName ++ "=" ++ value
  | flag f => if f.isOn options then some ("--" ++ f.longName) else none

@[simp] theorem isSome_argument?_option (options : Options) (o : ValueOption) :
    ((option o).argument? options).isSome = (o.valueIn options).isSome :=
  Option.isSome_map

@[simp] theorem isSome_argument?_flag (options : Options) (f : Flag) :
    ((flag f).argument? options).isSome = f.isOn options := by
  cases h : f.isOn options <;> simp [argument?, h]

/-- What can be written is a setting of the pass. -/
theorem mem_all {options : Options} {setting : Setting}
    (h : (setting.argument? options).isSome = true) : setting ∈ all := by
  cases setting with
  | option o =>
      rw [isSome_argument?_option] at h
      cases o with
      | nodesDir | visitorDir => cases h
      | _ => decide
  | flag f =>
      rw [isSome_argument?_flag] at h
      cases f with
      | check | verbose | help | version => cases h
      | _ => decide

theorem nodup_all : all.Nodup := by decide

end Setting

/-- The options that are kept, as arguments. -/
def Options.written (options : Options) (keeps : Setting → Bool) : List String :=
  (Setting.all.filter keeps).filterMap (Setting.argument? options)

/-- An option if it is kept, and its default if not. -/
def Options.pick {α : Type} (options : Options) (kept : Bool) (field : Options → α) : α :=
  if kept then field options else field {}

/-- The options that are kept, and the defaults of all others. -/
def Options.keeping (options : Options) (keeps : Setting → Bool) : Options where
  namePrefix := options.pick (keeps (.option .namePrefix)) Options.namePrefix
  nameSuffix := options.pick (keeps (.option .nameSuffix)) Options.nameSuffix
  parentPointer := options.pick (keeps (.flag .parentPointer)) Options.parentPointer
  javadoc := options.pick (keeps (.flag .javadoc)) Options.javadoc
  debugComments := options.pick (keeps (.flag .debugComments)) Options.debugComments
  inlineAccept := options.pick (keeps (.flag .inlineAccept)) Options.inlineAccept
  variadic := options.pick (keeps (.flag .variadic)) Options.variadic
  nodeInterface := options.pick (keeps (.option .nodeInterface)) Options.nodeInterface
  superclass := options.pick (keeps (.option .superclass)) Options.superclass
  nodeToken := options.pick (keeps (.option .nodeToken)) Options.nodeToken
  retArguVisitor := options.pick (keeps (.option .retArguVisitor)) Options.retArguVisitor
  retVisitor := options.pick (keeps (.option .retVisitor)) Options.retVisitor
  voidArguVisitor := options.pick (keeps (.option .voidArguVisitor)) Options.voidArguVisitor
  voidVisitor := options.pick (keeps (.option .voidVisitor)) Options.voidVisitor
  retType := options.pick (keeps (.option .retType)) Options.retType
  arguType := options.pick (keeps (.option .arguType)) Options.arguType
  serialUid := options.pick (keeps (.option .serialUid)) Options.serialUid
  indent := options.pick (keeps (.option .indent)) Options.indent
  nodesPackage := options.pick (keeps (.option .nodesPackage)) Options.nodesPackage
  visitorPackage := options.pick (keeps (.option .visitorPackage)) Options.visitorPackage

/-- It makes no difference whether an option is kept that is at its default. -/
theorem Options.pick_and {α : Type} {options : Options} {kept written : Bool} {field : Options → α}
    (h : written = false → field options = field {}) :
    options.pick (kept && written) field = options.pick kept field := by
  cases kept <;> cases written <;> simp [Options.pick, h]

/-- Nothing is written for an option only if it is at its default. -/
theorem Options.keeping_argument? (options : Options) (keeps : Setting → Bool) :
    (options.keeping fun setting => keeps setting && (setting.argument? options).isSome) =
      options.keeping keeps := by
  simp only [Options.keeping, Options.mk.injEq]
  and_intros
  all_goals
    apply Options.pick_and
    simp [ValueOption.valueIn, Flag.isOn]

/-! ## Numbers -/

theorem digitsValue_eq (digits : List Char) :
    digitsValue digits = Nat.ofDigitChars 10 digits 0 := by
  simp only [digitsValue, Nat.ofDigitChars, Nat.mul_comm]

/-- A number is read as it is written. -/
theorem parseNumber_toString {n : Nat} (h : n ≤ maxNumber) : parseNumber (toString n) = .ok n := by
  have hdigits : ∀ c ∈ Nat.toDigits 10 n, c.isDigit = true := fun c hc =>
    Nat.isDigit_of_mem_toDigits (by decide) (by decide) hc
  have hvalue : digitsValue (Nat.toDigits 10 n) = n := by
    rw [digitsValue_eq, Nat.ofDigitChars_ten_toDigits]
  obtain ⟨c, cs, hchars⟩ := List.exists_cons_of_ne_nil (Nat.toDigits_ne_nil (n := n) (b := 10))
  rw [hchars] at hdigits hvalue
  unfold parseNumber
  rw [Nat.toString_eq_ofList_toDigits, String.toList_ofList, hchars]
  dsimp only
  split
  · rename_i hplus
    obtain ⟨rfl, -⟩ := List.cons.inj hplus
    exact absurd (hdigits '+' List.mem_cons_self) (by decide)
  · rw [List.all_eq_true.2 hdigits, hvalue]
    simp [h]

/-! ## Reading one setting -/

/-- An option that is read is taken over with its value. -/
theorem ValueOption.set_keeping {wanted : Options} {keeps : Setting → Bool} {arguments : Arguments}
    (hserial : wanted.serialUid ≤ maxNumber) (hindent : wanted.indent ≤ maxNumber)
    (harguments : arguments.options = wanted.keeping keeps) {o : ValueOption} {value : String}
    (h : o.valueIn wanted = some value) :
    o.set value arguments = .ok { arguments with
      options := wanted.keeping fun setting => setting = .option o || keeps setting } := by
  cases o with
  | nodesDir => cases h
  | visitorDir => cases h
  | serialUid =>
      obtain rfl := Option.some.inj h
      dsimp only [ValueOption.set]
      rw [parseNumber_toString hserial, harguments]
      rfl
  | indent =>
      obtain rfl := Option.some.inj h
      dsimp only [ValueOption.set]
      rw [parseNumber_toString hindent, harguments]
      rfl
  | superclass | nodesPackage | visitorPackage =>
      dsimp only [ValueOption.set]
      rw [harguments, ← h]
      rfl
  | _ =>
      obtain rfl := Option.some.inj h
      dsimp only [ValueOption.set]
      rw [harguments]
      rfl

/-- A flag that is read is on. -/
theorem Flag.set_keeping {wanted : Options} {keeps : Setting → Bool} {arguments : Arguments}
    (harguments : arguments.options = wanted.keeping keeps) {f : Flag} (h : f.isOn wanted = true) :
    f.set arguments = .ok { arguments with
      options := wanted.keeping fun setting => setting = .flag f || keeps setting } := by
  cases f with
  | check | verbose | help | version => cases h
  | _ =>
      dsimp only [Flag.set]
      rw [harguments, ← h]
      rfl

theorem ValueOption.ofName?_longName (o : ValueOption) : ofName? o.longName = some o := by
  cases o <;> rfl

theorem Flag.ofName?_longName (f : Flag) :
    ValueOption.ofName? f.longName = none ∧ ofName? f.longName = some f := by
  cases f <;> exact ⟨rfl, rfl⟩

/-- There is no equals sign in the name of an option or a flag. -/
theorem Setting.ne_of_mem_longName :
    (∀ o : ValueOption, ∀ c ∈ o.longName.toList, (c != '=') = true) ∧
    ∀ f : Flag, ∀ c ∈ f.longName.toList, (c != '=') = true := by
  constructor <;> intro x <;> cases x <;> exact List.all_eq_true.1 rfl

/-! ## Reading one argument -/

namespace Reading

/-- What waits has its value, and this is the reading with it settled. -/
structure SettlesTo (reading settled : Reading) : Prop where
  settle : reading.settle = .ok settled
  waits : ∀ slot, reading.pending ≠ some (slot, none)
  pending : settled.pending = none
  trailing : reading.trailing = false ∧ settled.trailing = false
  positional : reading.positional = settled.positional

variable {reading settled : Reading}

theorem settlesTo_self (hpending : reading.pending = none) (htrailing : reading.trailing = false) :
    reading.SettlesTo reading where
  settle := by
    obtain ⟨arguments, options, flags, pending, positional, trailing⟩ := reading
    obtain rfl := hpending
    rfl
  waits := by simp [hpending]
  pending := hpending
  trailing := ⟨htrailing, htrailing⟩
  positional := rfl

/-- Two dashes and something behind them are read as a name. -/
theorem step_long (htrailing : reading.trailing = false) {long : List Char} (hlong : long ≠ [])
    {argument : String} (hargument : argument.toList = '-' :: '-' :: long) :
    reading.step argument = reading.readLong long := by
  obtain ⟨c, more, rfl⟩ := List.exists_cons_of_ne_nil hlong
  unfold step
  rw [if_neg (by simp [htrailing]), hargument]
  rfl

theorem step_option (h : reading.SettlesTo settled) {o : ValueOption} {value : String}
    {arguments : Arguments} (hfresh : o ∉ settled.options)
    (hset : o.set value settled.arguments = .ok arguments) :
    reading.step ("--" ++ o.longName ++ "=" ++ value) =
      .ok { settled with arguments, options := o :: settled.options } := by
  have hchars : ("--" ++ o.longName ++ "=" ++ value).toList =
      '-' :: '-' :: (o.longName.toList ++ '=' :: value.toList) := by
    simp
  rw [step_long h.trailing.1 (by simp) hchars]
  obtain ⟨htake, hdrop⟩ := @takeWhile_dropWhile_append (· != '=') o.longName.toList
    ('=' :: value.toList) (Setting.ne_of_mem_longName.1 o) (by simp)
  unfold readLong
  rw [htake, hdrop, String.ofList_toList]
  dsimp only
  rw [ValueOption.ofName?_longName, String.ofList_toList]
  dsimp only
  unfold readOption setOption
  simp [h.settle, hset, hfresh, bind, Except.bind, pure, Except.pure]

theorem step_flag (h : reading.SettlesTo settled) {f : Flag} {arguments : Arguments}
    (hfresh : f ∉ settled.flags) (hverbose : f ≠ .verbose)
    (hset : f.set settled.arguments = .ok arguments) :
    reading.step ("--" ++ f.longName) =
      .ok { settled with arguments, flags := f :: settled.flags } := by
  have hchars : ("--" ++ f.longName).toList = '-' :: '-' :: f.longName.toList := by simp
  have hname : f.longName.toList ≠ [] := by cases f <;> decide
  rw [step_long h.trailing.1 hname hchars]
  obtain ⟨htake, hdrop⟩ := @takeWhile_dropWhile_append (· != '=') f.longName.toList []
    (Setting.ne_of_mem_longName.2 f) (by simp)
  rw [List.append_nil] at htake hdrop
  unfold readLong
  rw [htake, hdrop, String.ofList_toList]
  dsimp only
  rw [(Flag.ofName?_longName f).1, (Flag.ofName?_longName f).2]
  unfold readFlag
  simp [h.settle, hset, hfresh, hverbose, bind, Except.bind, pure, Except.pure]

theorem step_positional (h : reading.SettlesTo settled) (hpositional : settled.positional = false)
    {argument : String} (hdash : argument.toList.head? ≠ some '-') :
    reading.step argument =
      .ok { settled with pending := some (.grammar, some argument), positional := true } := by
  have hvalue : reading.step argument = reading.readValue argument := by
    unfold step
    rw [if_neg (by simp [h.trailing.1])]
    split <;> simp_all
  have hplace : reading.readValue argument = reading.readPositional argument := by
    unfold readValue
    split
    · rename_i slot hwaits
      exact absurd hwaits (h.waits slot)
    · rfl
  rw [hvalue, hplace]
  unfold readPositional
  simp [h.settle, h.positional, hpositional, bind, Except.bind, pure, Except.pure]

/-- A grammar that waits is settled, unless its path is empty. -/
theorem settlesTo_grammar {path : String} (hpath : path ≠ "") (hpending : settled.pending = none)
    (htrailing : settled.trailing = false) :
    SettlesTo { settled with pending := some (.grammar, some path), positional := true }
      { settled with
        arguments := { settled.arguments with grammar := path }, positional := true } where
  settle := by
    have hparse : parsePath path = .ok path := by
      rw [parsePath, if_neg (by simpa using hpath)]
    unfold settle
    simp [hparse, hpending, bind, Except.bind, pure, Except.pure]
  waits := by simp
  pending := hpending
  trailing := ⟨htrailing, htrailing⟩
  positional := rfl

end Reading

/-! ## Arguments in any order -/

/-- What an argument is for. -/
inductive Word where
  | grammar
  | setting (setting : Setting)
  deriving DecidableEq, Repr

/-- A word as an argument, unless there is nothing to write for it. -/
def Word.argument? (wanted : Options) (path : String) : Word → Option String
  | grammar => some path
  | setting s => s.argument? wanted

/-- These words have been taken over, in whatever order, and nothing else. -/
structure Reading.HasTaken (settled : Reading) (wanted : Options) (path : String)
    (words : List Word) : Prop where
  arguments : settled.arguments =
    { grammar := if .grammar ∈ words then path else ""
      options := wanted.keeping fun setting => .setting setting ∈ words }
  options : ∀ o, o ∈ settled.options ↔ .setting (.option o) ∈ words
  flags : ∀ f, f ∈ settled.flags ↔ .setting (.flag f) ∈ words
  positional : settled.positional = decide (.grammar ∈ words)

namespace Reading

variable {wanted : Options} {path : String} {reading settled : Reading} {words : List Word}

theorem hasTaken_start (wanted : Options) (path : String) : start.HasTaken wanted path [] where
  arguments := rfl
  options := by simp [start]
  flags := by simp [start]
  positional := rfl

section Steps

variable (hserial : wanted.serialUid ≤ maxNumber) (hindent : wanted.indent ≤ maxNumber)
  (hpath : path ≠ "") (hdash : path.toList.head? ≠ some '-')

include hserial hindent hpath hdash

/-- **One more word** is taken over when its argument is read. -/
theorem exists_step (h : reading.SettlesTo settled) (htaken : settled.HasTaken wanted path words)
    {word : Word} (hfresh : word ∉ words) {argument : String}
    (hargument : word.argument? wanted path = some argument) :
    ∃ next settled', reading.step argument = .ok next ∧ next.SettlesTo settled' ∧
      settled'.HasTaken wanted path (word :: words) := by
  have hoptions : settled.arguments.options =
      wanted.keeping fun setting => .setting setting ∈ words := by rw [htaken.arguments]
  match word with
  | .grammar =>
      obtain rfl := Option.some.inj hargument
      refine ⟨_, _, step_positional h (by simp [htaken.positional, hfresh]) hdash,
        settlesTo_grammar hpath h.pending h.trailing.2, ?_, ?_, ?_, ?_⟩
      · simp [htaken.arguments]
      · simp [htaken.options]
      · simp [htaken.flags]
      · simp
  | .setting (.option o) =>
      obtain ⟨value, hvalue, rfl⟩ := Option.map_eq_some_iff.1 hargument
      have hset := ValueOption.set_keeping hserial hindent hoptions hvalue
      refine ⟨_, _, step_option h (fun ho => hfresh ((htaken.options o).1 ho)) hset,
        settlesTo_self h.pending h.trailing.2, ?_, ?_, ?_, ?_⟩
      · simp [htaken.arguments]
      · simp [htaken.options]
      · simp [htaken.flags]
      · simp [htaken.positional]
  | .setting (.flag f) =>
      obtain ⟨hon, hwritten⟩ := Option.ite_none_right_eq_some.1 hargument
      obtain rfl := Option.some.inj hwritten
      have hverbose : f ≠ .verbose := by
        rintro rfl
        cases hon
      refine ⟨_, _, step_flag h (fun hf => hfresh ((htaken.flags f).1 hf)) hverbose
        (Flag.set_keeping hoptions hon), settlesTo_self h.pending h.trailing.2, ?_, ?_, ?_, ?_⟩
      · simp [htaken.arguments]
      · simp [htaken.options]
      · simp [htaken.flags]
      · simp [htaken.positional]

/-- **All words** are taken over when their arguments are read one after the other, if no two of
them are the same. -/
theorem exists_steps {arguments : List String} {more : List Word}
    (harguments : List.Forall₂ (fun argument word => word.argument? wanted path = some argument)
      arguments more) (hmore : more.Nodup) (hfresh : ∀ word ∈ more, word ∉ words)
    (h : reading.SettlesTo settled) (htaken : settled.HasTaken wanted path words) :
    ∃ last settled', arguments.foldlM step reading = .ok last ∧ last.SettlesTo settled' ∧
      settled'.HasTaken wanted path (more.reverse ++ words) := by
  induction harguments generalizing reading settled words with
  | nil => exact ⟨reading, settled, rfl, h, htaken⟩
  | @cons argument word arguments more hargument harguments ih =>
      obtain ⟨hword, hmore⟩ := List.nodup_cons.1 hmore
      obtain ⟨hnew, hfresh⟩ := List.forall_mem_cons.1 hfresh
      obtain ⟨next, settled', hstep, hnext, htaken'⟩ :=
        exists_step hserial hindent hpath hdash h htaken hnew hargument
      have hothers : ∀ other ∈ more, other ∉ word :: words := fun other hother hmem =>
        (List.mem_cons.1 hmem).elim (fun he => hword (he ▸ hother)) (hfresh other hother)
      obtain ⟨last, settled'', hsteps, hlast, htaken''⟩ := ih hmore hothers hnext htaken'
      refine ⟨last, settled'', ?_, hlast, ?_⟩
      · rw [List.foldlM_cons, hstep]
        exact hsteps
      · rwa [List.reverse_cons, List.append_assoc]

end Steps

end Reading

/-- What is written comes from the words for which there is something to write. -/
theorem forall₂_filterMap {α β : Type} (write : α → Option β) (l : List α) :
    List.Forall₂ (fun written a => write a = some written) (l.filterMap write)
      (l.filter fun a => (write a).isSome) := by
  induction l with
  | nil => exact .nil
  | cons a l ih =>
      cases h : write a with
      | none => simpa [h] using ih
      | some written => simpa [h] using ih

/-- The words of the arguments of a path and of settings that are kept, in the order in which the
arguments stand. -/
theorem exists_words {wanted : Options} {path : String} {keeps : Setting → Bool}
    {arguments : List String} (h : arguments.Perm (path :: wanted.written keeps)) :
    ∃ words : List Word, List.Forall₂
        (fun argument word => word.argument? wanted path = some argument) arguments words ∧
      words.Nodup ∧ .grammar ∈ words ∧ ∀ setting, .setting setting ∈ words ↔
        (keeps setting && (setting.argument? wanted).isSome) = true := by
  have hwritten : List.Forall₂
      (fun argument word => Word.argument? wanted path word = some argument)
      (path :: wanted.written keeps)
      (.grammar :: ((Setting.all.filter keeps).filter
        fun setting => (setting.argument? wanted).isSome).map .setting) :=
    .cons rfl (List.forall₂_map_right_iff.2 (forall₂_filterMap _ _))
  obtain ⟨words, hwords, hperm⟩ := List.perm_comp_forall₂ h hwritten
  refine ⟨words, hwords, hperm.nodup_iff.2 ?_, hperm.mem_iff.2 List.mem_cons_self, ?_⟩
  · have hinjective : Function.Injective Word.setting := fun _ _ => Word.setting.inj
    exact List.nodup_cons.2 ⟨by simp, List.Nodup.map hinjective
      (List.Nodup.filter _ (List.Nodup.filter _ Setting.nodup_all))⟩
  · intro setting
    rw [hperm.mem_iff, Bool.and_eq_true]
    simp only [List.mem_cons, reduceCtorEq, List.mem_map, List.mem_filter, Word.setting.injEq,
      exists_eq_right, false_or]
    exact ⟨fun h => ⟨h.1.2, h.2⟩, fun h => ⟨⟨Setting.mem_all h.2, h.1⟩, h.2⟩⟩

/-- **Options that are written as arguments are read back**, in whatever order, and with the path of
the grammar anywhere among them. Those that are left out are at their defaults. -/
theorem readArguments_options {wanted : Options} {path : String} {keeps : Setting → Bool}
    {arguments : List String} (hserial : wanted.serialUid ≤ maxNumber)
    (hindent : wanted.indent ≤ maxNumber) (hpath : path ≠ "")
    (hdash : path.toList.head? ≠ some '-') (h : arguments.Perm (path :: wanted.written keeps)) :
    readArguments arguments = .ok { grammar := path, options := wanted.keeping keeps } := by
  obtain ⟨words, hwords, hnodup, hgrammar, hsettings⟩ := exists_words h
  obtain ⟨last, settled, hsteps, hlast, htaken⟩ :=
    Reading.exists_steps hserial hindent hpath hdash hwords hnodup (by simp)
      (Reading.settlesTo_self rfl rfl) (Reading.hasTaken_start wanted path)
  rw [List.append_nil] at htaken
  have hoptions : (wanted.keeping fun setting => .setting setting ∈ words.reverse) =
      wanted.keeping keeps := by
    rw [← wanted.keeping_argument? keeps]
    congr 1
    funext setting
    rw [Bool.eq_iff_iff, ← hsettings setting]
    simp
  have hpositional : settled.positional = true := by
    rw [htaken.positional]
    simpa using hgrammar
  have harguments := htaken.arguments
  rw [hoptions, if_pos (List.mem_reverse.2 hgrammar)] at harguments
  unfold readArguments
  simp [hsteps, hlast.settle, hpositional, harguments, bind, Except.bind, pure, Except.pure]

/-! ## Settings as arguments -/

/-- The settings as arguments, each behind the name of its option. Nothing is written for what is
absent or off. -/
def Config.arguments (config : Config) : List (String × Option String) :=
  [("--prefix", some ("--prefix=" ++ config.namePrefix)),
    ("--suffix", some ("--suffix=" ++ config.nameSuffix)),
    ("--parent-pointer", if config.parentPointer then some "--parent-pointer" else none),
    ("--javadoc", if config.javadocComments then some "--javadoc" else none),
    ("--debug-comments", if config.debugComments then some "--debug-comments" else none),
    ("--inline-accept", if config.inlineAcceptMethods then some "--inline-accept" else none),
    ("--variadic", if config.variadicArgs then some "--variadic" else none),
    ("--node-interface", some ("--node-interface=" ++ config.nodeInterface)),
    ("--superclass", config.nodesSuperclass.map fun value => "--superclass=" ++ value),
    ("--node-token", some ("--node-token=" ++ config.nodeToken)),
    ("--ret-argu-visitor", some ("--ret-argu-visitor=" ++ config.retArguVisitor)),
    ("--ret-visitor", some ("--ret-visitor=" ++ config.retVisitor)),
    ("--void-argu-visitor", some ("--void-argu-visitor=" ++ config.voidArguVisitor)),
    ("--void-visitor", some ("--void-visitor=" ++ config.voidVisitor)),
    ("--ret-type", some ("--ret-type=" ++ config.retType)),
    ("--argu-type", some ("--argu-type=" ++ config.arguType)),
    ("--serial-uid", some ("--serial-uid=" ++ toString config.serialUid)),
    ("--indent", some ("--indent=" ++ toString config.indentAmount)),
    ("--nodes-package", config.nodesPackage.map fun value => "--nodes-package=" ++ value),
    ("--visitor-package", config.visitorPackage.map fun value => "--visitor-package=" ++ value)]

/-- The arguments of the settings whose options are kept. -/
def Config.written (config : Config) (keeps : String → Bool) : List String :=
  (config.arguments.filter (keeps ·.1)).filterMap Prod.snd

/-- A setting if its option is kept, and its default if not. -/
def Config.pick {α : Type} (config : Config) (kept : Bool) (field : Config → α) : α :=
  if kept then field config else field {}

/-- The settings whose options are kept, and the default settings of all others. -/
def Config.keeping (config : Config) (keeps : String → Bool) : Config where
  namePrefix := config.pick (keeps "--prefix") Config.namePrefix
  nameSuffix := config.pick (keeps "--suffix") Config.nameSuffix
  parentPointer := config.pick (keeps "--parent-pointer") Config.parentPointer
  javadocComments := config.pick (keeps "--javadoc") Config.javadocComments
  debugComments := config.pick (keeps "--debug-comments") Config.debugComments
  inlineAcceptMethods := config.pick (keeps "--inline-accept") Config.inlineAcceptMethods
  variadicArgs := config.pick (keeps "--variadic") Config.variadicArgs
  nodeInterface := config.pick (keeps "--node-interface") Config.nodeInterface
  nodesSuperclass := config.pick (keeps "--superclass") Config.nodesSuperclass
  nodeToken := config.pick (keeps "--node-token") Config.nodeToken
  retArguVisitor := config.pick (keeps "--ret-argu-visitor") Config.retArguVisitor
  retVisitor := config.pick (keeps "--ret-visitor") Config.retVisitor
  voidArguVisitor := config.pick (keeps "--void-argu-visitor") Config.voidArguVisitor
  voidVisitor := config.pick (keeps "--void-visitor") Config.voidVisitor
  retType := config.pick (keeps "--ret-type") Config.retType
  arguType := config.pick (keeps "--argu-type") Config.arguType
  serialUid := config.pick (keeps "--serial-uid") Config.serialUid
  indentAmount := config.pick (keeps "--indent") Config.indentAmount
  nodesPackage := config.pick (keeps "--nodes-package") Config.nodesPackage
  visitorPackage := config.pick (keeps "--visitor-package") Config.visitorPackage

/-- The options that say these settings. -/
def Config.options (config : Config) : Options where
  namePrefix := config.namePrefix
  nameSuffix := config.nameSuffix
  parentPointer := config.parentPointer
  javadoc := config.javadocComments
  debugComments := config.debugComments
  inlineAccept := config.inlineAcceptMethods
  variadic := config.variadicArgs
  nodeInterface := config.nodeInterface
  superclass := config.nodesSuperclass
  nodeToken := config.nodeToken
  retArguVisitor := config.retArguVisitor
  retVisitor := config.retVisitor
  voidArguVisitor := config.voidArguVisitor
  voidVisitor := config.voidVisitor
  retType := config.retType
  arguType := config.arguType
  serialUid := config.serialUid
  indent := config.indentAmount
  nodesPackage := config.nodesPackage
  visitorPackage := config.visitorPackage

section Converted

variable (config : Config) (keeps : String → Bool)

/-- Settings are written as their options are. -/
theorem written_options :
    config.options.written (fun setting => keeps setting.name) = config.written keeps := by
  have harguments : config.arguments =
      Setting.all.map fun setting => (setting.name, setting.argument? config.options) := rfl
  rw [Config.written, harguments, List.filter_map, List.filterMap_map]
  rfl

/-- **The two tables of defaults agree**, so an option that is left out leads to the default
setting. -/
theorem config_keeping_options :
    (config.options.keeping fun setting => keeps setting.name).config = config.keeping keeps := rfl

end Converted

/-- **Settings that are written as arguments are read back**, in whatever order, and with the path
of the grammar anywhere among them. Settings that are left out are at their defaults. -/
theorem readArguments_written (config : Config) (path : String)
    (hserial : config.serialUid < 2 ^ 64) (hindent : config.indentAmount < 2 ^ 64)
    (hpath : path ≠ "") (hdash : path.toList.head? ≠ some '-') :
    (∀ arguments, arguments.Perm (path :: config.written fun _ => true) →
      ∃ options, readArguments arguments = .ok { grammar := path, options } ∧
        options.config = config) ∧
    ∀ keeps arguments, arguments.Perm (path :: config.written keeps) →
      ∃ options, readArguments arguments = .ok { grammar := path, options } ∧
        options.config = config.keeping keeps := by
  have hread : ∀ keeps arguments, arguments.Perm (path :: config.written keeps) →
      ∃ options, readArguments arguments = .ok { grammar := path, options } ∧
        options.config = config.keeping keeps := by
    intro keeps arguments h
    rw [← written_options] at h
    have hnumbers : config.options.serialUid ≤ maxNumber ∧ config.options.indent ≤ maxNumber :=
      ⟨Nat.le_pred_of_lt hserial, Nat.le_pred_of_lt hindent⟩
    exact ⟨_, readArguments_options hnumbers.1 hnumbers.2 hpath hdash h,
      config_keeping_options ..⟩
  exact ⟨hread fun _ => true, hread⟩

/-- Values that are empty or start with a dash or an equals sign, the greatest number, and the path
behind all of them; and then the same without that number. -/
theorem readArguments_written_dashes : ∃ config : Config,
    config =
      { namePrefix := "-="
        nodesSuperclass := some ""
        javadocComments := true
        serialUid := 2 ^ 64 - 1 } ∧
    config.serialUid < 2 ^ 64 ∧ config.indentAmount < 2 ^ 64 ∧ "a=b" ≠ "" ∧
    "a=b".toList.head? ≠ some '-' ∧
    (∃ options, readArguments ("a=b" :: config.written fun _ => true).reverse =
      .ok { grammar := "a=b", options } ∧ options.config = config) ∧
    (∃ options, readArguments ("a=b" :: config.written (· ≠ "--serial-uid")) =
      .ok { grammar := "a=b", options } ∧ options.config = { config with serialUid := 148 }) := by
  refine ⟨_, rfl, by decide, by decide, by decide, by decide, ?_, ?_⟩
  · exact (readArguments_written _ "a=b" (by decide) (by decide) (by decide) (by decide)).1 _
      (List.reverse_perm _)
  · exact (readArguments_written _ "a=b" (by decide) (by decide) (by decide) (by decide)).2 _ _
      (List.Perm.refl _)

end TreeSmith

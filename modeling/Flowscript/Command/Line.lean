/-!
# The command line

The program has two commands, `build` and `test`, and a few options that stand before or behind the
command's name. The name `build` may be left out: it is put in front of the first argument that does
not begin with a dash, unless that argument is a command's name itself.

## Options

An option is spelt long, `--name`, or short, `-n`; short ones may be gathered behind one dash. A
value is given as `--name=value`, `--name value`, `-nvalue`, `-n=value` or `-n value`; a value that
stands apart may not begin with a dash, unless it is a dash. An argument `--` ends the options, and
a single dash is no option. No option but `--category` may be given twice on the same side of the
command's name.

Arguments are read from left to right, and the first thing to be noticed counts: a request for help
or for the version before an error is answered, and one behind it is not.

## Main definitions

* `Switch`, `Argument`, `Argument.readAll` — the arguments of a command, told apart.
* `BuildArguments`, `TestArguments`, `Invocation`.
* `withCommandName` — the default command.
* `Invocation.ofArguments` — what a list of arguments asks for.
-/

namespace Flowscript

/-! ### Options -/

/-- The options of all commands. -/
inductive Switch where
  | noColor | verbose | help | version
  | output | check | tokens | lenient | config
  | category | listCategories
deriving DecidableEq, Repr

namespace Switch

/-- The long spelling, without its dashes. -/
def long : Switch → String
  | .noColor => "no-color"
  | .verbose => "verbose"
  | .help => "help"
  | .version => "version"
  | .output => "output"
  | .check => "check"
  | .tokens => "tokens"
  | .lenient => "lenient"
  | .config => "config"
  | .category => "category"
  | .listCategories => "list-categories"

/-- The short spelling, without its dash. -/
def short? : Switch → Option Char
  | .verbose => some 'v'
  | .help => some 'h'
  | .version => some 'V'
  | .output => some 'o'
  | .category => some 'c'
  | _ => none

/-- Whether the option has a value. -/
def takesValue : Switch → Bool
  | .output | .config | .category => true
  | _ => false

/-- The options that stand before a command's name. -/
def general : List Switch := [.noColor, .verbose, .help, .version]

/-- The options of `build`. -/
def ofBuild : List Switch :=
  [.noColor, .verbose, .help, .output, .check, .tokens, .lenient, .config]

/-- The options of `test`. -/
def ofTest : List Switch := [.noColor, .verbose, .help, .category, .listCategories]

end Switch

/-! ### Telling arguments apart -/

/-- Why a command line is refused. -/
inductive UsageError where
  /-- No command is named. -/
  | missingCommand
  /-- An argument or an option is not known here. -/
  | unexpected (argument : String)
  /-- An option that has no value is given one. -/
  | needlessValue (option : String)
  /-- An option or an argument lacks its value. -/
  | missingValue (name : String)
  /-- An option is given twice. -/
  | repeated (option : String)
deriving DecidableEq, Repr

/-- The message of an error. -/
def UsageError.message : UsageError → String
  | .missingCommand => "a command is required"
  | .unexpected argument => "unexpected argument '" ++ argument ++ "' found"
  | .needlessValue option => "unexpected value for '" ++ option ++ "' found"
  | .missingValue name => "a value is required for '" ++ name ++ "' but none was supplied"
  | .repeated option => "the argument '" ++ option ++ "' cannot be used multiple times"

/-- An argument, told apart. -/
inductive Argument where
  /-- An option without a value. -/
  | flag (s : Switch)
  /-- An option with its value. -/
  | valued (s : Switch) (value : String)
  /-- No option. -/
  | plain (text : String)
  /-- Something that cannot be read; nothing behind it is read. -/
  | wrong (e : UsageError)
deriving DecidableEq, Repr

namespace Argument

/-- Whether an argument is read as options: it begins with a dash and is not a single one. -/
def looksLikeOption (argument : String) : Bool :=
  argument.toList.head? = some '-' && argument ≠ "-"

/-- What the last option of an argument still needs. -/
inductive Pending where
  /-- Nothing. -/
  | none
  /-- A value, which the next argument has to give. -/
  | value (s : Switch)
deriving DecidableEq, Repr

/-- Read an option in its long spelling, given without its dashes. -/
def readLong (known : List Switch) (text : List Char) : List Argument × Pending :=
  let (name, attached) := text.span (· ≠ '=')
  let spelt := "--" ++ String.ofList name
  match known.find? fun s => s.long.toList = name with
  | none => ([.wrong (.unexpected spelt)], .none)
  | some s =>
    match s.takesValue, attached with
    | true, _ :: value => ([.valued s (String.ofList value)], .none)
    | true, [] => ([], .value s)
    | false, _ :: _ => ([.wrong (.needlessValue spelt)], .none)
    | false, [] => ([.flag s], .none)

/-- Read options in their short spelling, given without their dash. What follows an option with a
value is the value; an equals sign before it is left out. -/
def readShort (known : List Switch) : List Char → List Argument × Pending
  | [] => ([], .none)
  | c :: rest =>
    match known.find? fun s => s.short? = some c with
    | none => ([.wrong (.unexpected ("-" ++ String.ofList [c]))], .none)
    | some s =>
      if s.takesValue then
        match rest with
        | [] => ([], .value s)
        | '=' :: value => ([.valued s (String.ofList value)], .none)
        | value => ([.valued s (String.ofList value)], .none)
      else
        let (more, pending) := readShort known rest
        (.flag s :: more, pending)

/-- Tell the arguments of a command apart. `pending` is an option that waits for its value. -/
def readAll (known : List Switch) (pending : Pending) : List String → List Argument
  | [] =>
    match pending with
    | .none => []
    | .value s => [.wrong (.missingValue ("--" ++ s.long))]
  | a :: rest =>
    match pending with
    | .value s =>
      if looksLikeOption a then [.wrong (.missingValue ("--" ++ s.long))]
      else .valued s a :: readAll known .none rest
    | .none =>
      if !looksLikeOption a then .plain a :: readAll known .none rest
      else if a = "--" then rest.map .plain
      else
        let (read, pending') :=
          match a.toList.drop 1 with
          | '-' :: name => readLong known name
          | letters => readShort known letters
        read ++ readAll known pending' rest

end Argument

/-! ### Commands -/

/-- The options that both commands share. -/
structure General where
  /-- Show no colours. -/
  noColor : Bool := false
  /-- Say what is being done. -/
  verbose : Bool := false
deriving DecidableEq, Repr

/-- Options given before and behind a command's name count together. -/
def General.or (g h : General) : General := ⟨g.noColor || h.noColor, g.verbose || h.verbose⟩

/-- The arguments of `build`. -/
structure BuildArguments where
  /-- The source. -/
  file : String
  /-- Where the document is written instead of being printed. -/
  output : Option String := none
  /-- Only check the source. -/
  check : Bool := false
  /-- Only show the tokens of the source. -/
  tokens : Bool := false
  /-- Turn every leniency switch on. -/
  lenient : Bool := false
  /-- The settings document. -/
  config : Option String := none
deriving DecidableEq, Repr

/-- The arguments of `test`. -/
structure TestArguments where
  /-- A test file, or a folder of test files. -/
  path : String
  /-- The categories asked for; none means all. -/
  categories : List String := []
  /-- Only list the categories. -/
  listCategories : Bool := false
deriving DecidableEq, Repr

/-- What a command line asks for. -/
inductive Invocation where
  /-- Compile a source. -/
  | build (general : General) (arguments : BuildArguments)
  /-- Run tests. -/
  | test (general : General) (arguments : TestArguments)
  /-- Show the version. -/
  | version
  /-- Show help. -/
  | help
deriving DecidableEq, Repr

namespace Invocation

/-- What arguments have said so far. -/
structure Gathered where
  /-- The options without values that were given. -/
  flags : List Switch := []
  /-- The options with values that were given, with their values, in order. -/
  values : List (Switch × String) := []
  /-- The argument that is no option. -/
  subject : Option String := none
deriving DecidableEq, Repr

namespace Gathered

/-- The value of an option. -/
def value? (g : Gathered) (s : Switch) : Option String := g.values.lookup s

/-- Whether an option was given. -/
def has (g : Gathered) (s : Switch) : Bool := s ∈ g.flags

/-- The options that both commands share. -/
def general (g : Gathered) : General := ⟨g.has .noColor, g.has .verbose⟩

end Gathered

/-- How the reading of a command's arguments ends. -/
inductive Ending where
  /-- Everything was read. -/
  | complete (g : Gathered)
  /-- A question was asked that is answered at once. -/
  | question (s : Switch)
  /-- The command line is refused. -/
  | refused (e : UsageError)
deriving DecidableEq, Repr

/-- Whether the value of an option may be empty. A path may not. -/
def mayBeEmpty : Switch → Bool
  | .category => true
  | _ => false

/-- Gather the arguments of a command, from left to right. -/
def gather (g : Gathered) : List Argument → Ending
  | [] => .complete g
  | .wrong e :: _ => .refused e
  | .flag s :: rest =>
    if s = .help || s = .version then .question s
    else if g.has s then .refused (.repeated ("--" ++ s.long))
    else gather { g with flags := s :: g.flags } rest
  | .valued s v :: rest =>
    if v = "" && !mayBeEmpty s then .refused (.missingValue ("--" ++ s.long))
    else if s ≠ .category && (g.value? s).isSome then .refused (.repeated ("--" ++ s.long))
    else gather { g with values := g.values ++ [(s, v)] } rest
  | .plain text :: rest =>
    if g.subject.isSome then .refused (.unexpected text)
    else if text = "" then .refused (.missingValue "path")
    else gather { g with subject := some text } rest

/-- The names of the commands. -/
def commandNames : List String := ["build", "test", "help"]

/-- Put the default command's name before the first argument that does not begin with a dash, unless
that is a command's name. -/
def withCommandName : List String → List String
  | [] => []
  | a :: rest =>
    if a.toList.head? = some '-' then a :: withCommandName rest
    else if a ∈ commandNames then a :: rest
    else "build" :: a :: rest

/-- What the answer to a question asked among the arguments is. -/
def answer (s : Switch) : Invocation := if s = .version then .version else .help

/-- Read the arguments of `build`. -/
def ofBuildArguments (before : General) (args : List String) : Except UsageError Invocation :=
  match gather {} (Argument.readAll Switch.ofBuild .none args) with
  | .refused e => .error e
  | .question s => .ok (answer s)
  | .complete g =>
    match g.subject with
    | none => .error (.missingValue "file")
    | some file =>
      .ok (.build (before.or g.general)
        { file, output := g.value? .output, check := g.has .check, tokens := g.has .tokens,
          lenient := g.has .lenient, config := g.value? .config })

/-- Read the arguments of `test`. -/
def ofTestArguments (before : General) (args : List String) : Except UsageError Invocation :=
  match gather {} (Argument.readAll Switch.ofTest .none args) with
  | .refused e => .error e
  | .question s => .ok (answer s)
  | .complete g =>
    match g.subject with
    | none => .error (.missingValue "path")
    | some path =>
      .ok (.test (before.or g.general)
        { path, categories := (g.values.filter (·.1 = .category)).map (·.2),
          listCategories := g.has .listCategories })

/-- Read the arguments of `help`: nothing, or a command's name. -/
def ofHelpArguments : List String → Except UsageError Invocation
  | [] => .ok .help
  | [name] => if name ∈ commandNames then .ok .help else .error (.unexpected name)
  | name :: next :: _ => .error (.unexpected (if name ∈ commandNames then next else name))

/-- Read a command's name and what follows it. -/
def ofCommand (before : General) (name : String) (args : List String) :
    Except UsageError Invocation :=
  if name = "build" then ofBuildArguments before args
  else if name = "test" then ofTestArguments before args
  else if name = "help" then ofHelpArguments args
  else .error (.unexpected name)

/-- Read arguments in which a command's name is spelt out: options, the name, and what follows. -/
def ofSpeltOut (args : List String) : Except UsageError Invocation :=
  let (front, rest) := args.span Argument.looksLikeOption
  match gather {} (Argument.readAll Switch.general .none front) with
  | .refused e => .error e
  | .question s => .ok (answer s)
  | .complete g =>
    match rest with
    | [] => .error .missingCommand
    | name :: args' =>
      if "--" ∈ front then .error (.unexpected name) else ofCommand g.general name args'

/-- What a list of arguments asks for. -/
def ofArguments (args : List String) : Except UsageError Invocation :=
  ofSpeltOut (withCommandName args)

end Invocation

end Flowscript

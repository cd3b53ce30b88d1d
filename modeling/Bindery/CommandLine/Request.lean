import Bindery.Target.Builtin.All

/-
  This file defines what the arguments of a command line ask
  for.

  Arguments are read from left to right, and the first one that
  asks for help or is wrong decides.

  Key definitions include:
    * `Command`
    * `Request`
    * `Options`
    * `readArguments`
    * `Request.ofArguments`
-/

namespace Bindery.CommandLine

------------------------------------------------------------
-- Requests
------------------------------------------------------------

/- The shells for which there are completions. -/
inductive Shell where
| bash
| elvish
| fish
| powershell
| zsh
deriving DecidableEq, Repr

/- The name of a shell. -/
def Shell.name : Shell → String
| .bash => "bash"
| .elvish => "elvish"
| .fish => "fish"
| .powershell => "powershell"
| .zsh => "zsh"

/- All shells. -/
def Shell.all : List Shell :=
  [.bash, .elvish, .fish, .powershell, .zsh]

/- The shell of a name. -/
def Shell.ofName? (name : String) : Option Shell :=
  Shell.all.find? (fun shell => shell.name = name)

/- What is to be done. -/
inductive Command where
| generate
    (schema target output : String)
    (searchPaths : List String)
    (dryRun : Bool)
| targets (searchPaths : List String)
| check (schema : String)
| completions (shell : Shell)
deriving DecidableEq, Repr

/- What is asked for; `verbose` also asks for debug events. -/
inductive Request where
| run (verbose : Bool) (command : Command)
| help
| version
| wrong
deriving DecidableEq, Repr

------------------------------------------------------------
-- Options
------------------------------------------------------------

/- An option without a value. -/
inductive Flag where
| verbose
| dryRun
| help
| version
deriving DecidableEq, Repr

/- An option with a value. -/
inductive Field where
| target
| output
| searchPath
deriving DecidableEq, Repr

/- The names of an option. -/
structure OptionName where
  long : String
  short : Option Char

/- The names of a flag. -/
def Flag.name : Flag → OptionName
| .verbose => ⟨"verbose", some 'v'⟩
| .dryRun => ⟨"dry-run", none⟩
| .help => ⟨"help", some 'h'⟩
| .version => ⟨"version", some 'V'⟩

/- The names of an option with a value. -/
def Field.name : Field → OptionName
| .target => ⟨"target", some 't'⟩
| .output => ⟨"output", some 'o'⟩
| .searchPath => ⟨"target-path", none⟩

/- Which arguments are known in front of or after a command. -/
structure Options where
  flags : List Flag
  fields : List Field
  positional : Nat

/- An option, with a value or without. -/
inductive Switch where
| flag : Flag → Switch
| field : Field → Switch

/- The option whose names satisfy a condition. -/
def Options.find?
    (options : Options)
    (condition : OptionName → Bool) : Option Switch :=
  match options.flags.find? (fun f => condition f.name) with
  | some f => some (.flag f)
  | none =>
      (options.fields.find? (fun f => condition f.name)).map Switch.field

------------------------------------------------------------
-- Arguments
------------------------------------------------------------

/- Arguments that were read. -/
structure Given where
  flags : List Flag
  target : Option String
  output : Option String
  searchPaths : List String
  positional : List String
deriving DecidableEq, Repr

/- No arguments. -/
def Given.none : Given :=
  ⟨[], Option.none, Option.none, [], []⟩

/- Why reading arguments ends early. -/
inductive Stop where
| help
| version
| wrong
deriving DecidableEq, Repr

/- Add a flag, which may be given once. -/
def Given.addFlag
    (given : Given)
    (flag : Flag) : Except Stop Given :=
  match flag with
  | .help => .error .help
  | .version => .error .version
  | _ =>
      if given.flags.contains flag then .error .wrong
      else .ok { given with flags := flag :: given.flags }

/-
  Add the value of an option.  Only search paths may be given
  more than once, and paths are not empty.
-/
def Given.addField
    (given : Given)
    (field : Field)
    (value : String) : Except Stop Given :=
  match field with
  | .target =>
      if given.target.isSome then .error .wrong
      else .ok { given with target := some value }
  | .output =>
      if given.output.isSome || value.isEmpty then .error .wrong
      else .ok { given with output := some value }
  | .searchPath =>
      if value.isEmpty then .error .wrong
      else
        .ok { given with searchPaths := given.searchPaths ++ [value] }

/- Add an argument that is no option; it is not empty. -/
def Given.addPositional
    (given : Given)
    (options : Options)
    (value : String) : Except Stop Given :=
  if options.positional ≤ given.positional.length || value.isEmpty then
    .error .wrong
  else
    .ok { given with positional := given.positional ++ [value] }

/- The value after an equals sign. -/
def attachedValue : List Char → String
| '=' :: value => String.ofList value
| value => String.ofList value

/- Options given so far, and one that still needs its value. -/
abbrev Pending :=
  Given × Option Field

/- Read letters of options; the rest may be the value of one. -/
def readLetters
    (options : Options) : List Char → Given → Except Stop Pending
| [], given => .ok (given, none)
| c :: rest, given =>
    match options.find? (fun name => name.short = some c) with
    | some (.flag flag) => do
        let given ← given.addFlag flag
        readLetters options rest given
    | some (.field field) =>
        if rest.isEmpty then .ok (given, some field)
        else do
          let given ← given.addField field (attachedValue rest)
          .ok (given, none)
    | none => .error .wrong

/- Read an option with a long name. -/
def readLong
    (options : Options)
    (text : List Char)
    (given : Given) : Except Stop Pending :=
  let word := String.ofList (text.takeWhile (· ≠ '='))
  let value := text.dropWhile (· ≠ '=')
  match options.find? (fun name => name.long = word) with
  | some (.flag flag) =>
      if value.isEmpty then do
        let given ← given.addFlag flag
        .ok (given, none)
      else
        .error .wrong
  | some (.field field) =>
      if value.isEmpty then .ok (given, some field)
      else do
        let given ← given.addField field (attachedValue value)
        .ok (given, none)
  | none => .error .wrong

/- Whether an argument is an option; a single minus sign is none. -/
def isOption (arg : String) : Bool :=
  match arg.toList with
  | '-' :: _ :: _ => true
  | _ => false

/- Read one option, which may need the next argument. -/
def readOption
    (options : Options)
    (arg : String)
    (given : Given) : Except Stop Pending :=
  match arg.toList with
  | '-' :: '-' :: text => readLong options text given
  | '-' :: letters => readLetters options letters given
  | _ => .error .wrong

/- Add arguments none of which is an option. -/
def readPositional
    (options : Options) : List String → Given → Except Stop Given
| [], given => .ok given
| arg :: rest, given => do
    let given ← given.addPositional options arg
    readPositional options rest given

/- Read arguments; the field needs the first one as its value. -/
def readFrom
    (options : Options) :
    Option Field → List String → Given → Except Stop Given
| none, [], given => .ok given
| some _, [], _ => .error .wrong
| some field, arg :: rest, given =>
    if isOption arg then .error .wrong
    else do
      let given ← given.addField field arg
      readFrom options none rest given
| none, arg :: rest, given =>
    if arg = "--" then readPositional options rest given
    else if isOption arg then do
      let (given, field) ← readOption options arg given
      readFrom options field rest given
    else do
      let given ← given.addPositional options arg
      readFrom options none rest given

/- Read all arguments. -/
def readArguments
    (options : Options)
    (args : List String) : Except Stop Given :=
  readFrom options none args Given.none

------------------------------------------------------------
-- Commands
------------------------------------------------------------

/- The output directory if none is asked for. -/
def defaultOutput : String :=
  "build"

/- A command by its name, and what it needs to know. -/
structure CommandKind where
  name : String
  options : Options
  command? : Given → Option Command

/- Flags that every command knows. -/
def commonFlags : List Flag :=
  [.verbose, .help]

/- The command that generates. -/
def generateKind : CommandKind where
  name := "generate"
  options := ⟨.dryRun :: commonFlags, [.target, .output, .searchPath], 1⟩
  command? := fun given =>
    match given.positional with
    | [schema] =>
        some (.generate schema
          (given.target.getD Builtin.default.id)
          (given.output.getD defaultOutput)
          given.searchPaths
          (given.flags.contains .dryRun))
    | _ => none

/- The command that lists targets. -/
def targetsKind : CommandKind where
  name := "targets"
  options := ⟨commonFlags, [.searchPath], 0⟩
  command? := fun given => some (.targets given.searchPaths)

/- The command that checks a schema. -/
def checkKind : CommandKind where
  name := "check"
  options := ⟨commonFlags, [], 1⟩
  command? := fun given =>
    match given.positional with
    | [schema] => some (.check schema)
    | _ => none

/- The command that prints completions. -/
def completionsKind : CommandKind where
  name := "completions"
  options := ⟨commonFlags, [], 1⟩
  command? := fun given =>
    match given.positional with
    | [shell] => (Shell.ofName? shell).map Command.completions
    | _ => none

/- All commands. -/
def commandKinds : List CommandKind :=
  [generateKind, targetsKind, checkKind, completionsKind]

/- The command of a name. -/
def kindOf? (name : String) : Option CommandKind :=
  commandKinds.find? (fun kind => kind.name = name)

/- What is asked for when reading arguments ended early. -/
def Stop.request : Stop → Request
| .help => .help
| .version => .version
| .wrong => .wrong

/- Read the arguments after the name of a command. -/
def requestOf
    (kind : CommandKind)
    (verbose : Bool)
    (args : List String) : Request :=
  match readArguments kind.options args with
  | .error stop => stop.request
  | .ok given =>
      match kind.command? given with
      | some command =>
          .run (verbose || given.flags.contains .verbose) command
      | none => .wrong

/- Read what help is asked for: nothing, or the name of a command. -/
def helpRequest : List String → Request
| [] => .help
| [name] =>
    if name = "help" || (kindOf? name).isSome then .help else .wrong
| _ => .wrong

/- The options in front of a command. -/
def topLevel : Options :=
  ⟨[.verbose, .help, .version], [], 0⟩

/- Read options up to the name of a command, and its arguments. -/
def readCommand : List String → Given → Request
| [], _ => .wrong
| arg :: rest, given =>
    if arg = "help" then helpRequest rest
    else
      match kindOf? arg with
      | some kind => requestOf kind (given.flags.contains .verbose) rest
      | none =>
          if arg = "--" || !isOption arg then .wrong
          else
            match readOption topLevel arg given with
            | .error stop => stop.request
            | .ok (given, _) => readCommand rest given

/- What a command line asks for. -/
def Request.ofArguments (args : List String) : Request :=
  readCommand args Given.none

end Bindery.CommandLine

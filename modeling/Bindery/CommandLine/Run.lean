import Bindery.CommandLine.Request
import Bindery.Report.Check
import Bindery.Report.Generate
import Bindery.Report.Targets

/-
  This file defines what a command does.

  Key definitions include:
    * `Outcome`
    * `Event.line`
    * `runGenerate`
    * `runTargets`
    * `runCheck`
    * `run`
-/

namespace Bindery

/- The word for a level in a log line. -/
def Level.text : Level → String
| .debug => "DEBUG"
| .warn => "WARN"

/- The line that an event is logged as. -/
def Event.line (event : Event) : String :=
  String.intercalate " "
    (event.level.text :: (event.topic.text ++ ":") :: event.message ::
      event.fields.map (fun (name, value) => name ++ "=" ++ value))

/- The events that are shown; debug events only if asked for. -/
def shownEvents
    (verbose : Bool)
    (events : List Event) : List Event :=
  events.filter (fun event => verbose || event.level = .warn)

namespace CommandLine

/- The version of the program. -/
def versionText : String :=
  "declgen 0.5.0\n"

/- How the program is used. -/
def helpText : String :=
  ofLines
    ["Generate language bindings from a JSON declaration schema",
      "",
      "Usage: declgen [OPTIONS] <COMMAND>",
      "",
      "Commands:",
      "  generate     Generate a target for a schema",
      "  targets      List the available targets",
      "  check        Check a schema",
      "  completions  Print completions for a shell",
      "  help         Print this message",
      "",
      "Options:",
      "  -v, --verbose  Show debug output",
      "  -h, --help     Print help",
      "  -V, --version  Print version"]

/- Words that can be completed, for one of the shells. -/
def completionText (shell : Shell) : String :=
  "# declgen completions for " ++ shell.name ++ ": " ++
    String.intercalate " " (commandKinds.map CommandKind.name) ++ "\n"

/-
  What a command line leads to.  The status is 0 for success, 1
  for a failure and 2 for wrong arguments.
-/
structure Outcome where
  status : Nat
  output : String
  warnings : List String
  -- the code under which a failure is documented
  code : Option String
  -- why a generation could not be written, outermost first
  causes : List String
  events : List Event
  fileSystem : FileSystem

namespace Outcome

/- The outcome of printing a text. -/
def printing
    (fs : FileSystem)
    (text : String) : Outcome :=
  ⟨0, text, [], none, [], [], fs⟩

/- The outcome of a report. -/
def reporting
    (fs : FileSystem)
    (events : List Event)
    (report : Report) : Outcome :=
  ⟨0, report.output, report.warnings, none, [], events, fs⟩

/- The outcome of a failure that has a code. -/
def failing
    (fs : FileSystem)
    (events : List Event)
    (code : String) : Outcome :=
  ⟨1, "", [], some code, [], events, fs⟩

end Outcome

/- Check a schema. -/
def runCheck
    (fs : FileSystem)
    (path : String) : Outcome :=
  match SchemaFile.read fs path with
  | .error e => .failing fs [] e.code
  | .ok file => .reporting fs [] (CheckReport.ofFile file).lines

/- List the targets. -/
def runTargets
    (fs : FileSystem)
    (searchPaths : List String) : Outcome :=
  let app := App.withSearchPaths fs searchPaths
  match app.outcome with
  | .error e => .failing fs app.events e.code
  | .ok built =>
      .reporting fs app.events (TargetsReport.ofApp built).lines

/- Write or preview a generation. -/
def runPublish
    (fs : FileSystem)
    (events : List Event)
    (generation : Generation)
    (target output : String)
    (dryRun : Bool) : Outcome :=
  match generation.publish target output dryRun fs with
  | .ok report fs' => .reporting fs' events report.lines
  | .error e fs' => ⟨1, "", [], none, publishMessages e, events, fs'⟩

/- Generate a target for a schema. -/
def runGenerate
    (fs : FileSystem)
    (schema target output : String)
    (searchPaths : List String)
    (dryRun : Bool) : Outcome :=
  match SchemaFile.read fs schema with
  | .error e => .failing fs [] e.code
  | .ok file =>
      let generation : Traced GenerationError Generation := do
        let app ← App.withSearchPaths fs searchPaths
        app.generate fs file.schema target
      match generation.outcome with
      | .error e => .failing fs generation.events e.code
      | .ok made =>
          runPublish fs generation.events made target output dryRun

/- Carry a command out. -/
def runCommand
    (fs : FileSystem) : Command → Outcome
| .generate schema target output searchPaths dryRun =>
    runGenerate fs schema target output searchPaths dryRun
| .targets searchPaths => runTargets fs searchPaths
| .check schema => runCheck fs schema
| .completions shell => .printing fs (completionText shell)

/- Carry out what the arguments of a command line ask for. -/
def run
    (fs : FileSystem)
    (args : List String) : Outcome :=
  match Request.ofArguments args with
  | .wrong => ⟨2, "", [], none, [], [], fs⟩
  | .help => .printing fs helpText
  | .version => .printing fs versionText
  | .run verbose command =>
      let outcome := runCommand fs command
      { outcome with events := shownEvents verbose outcome.events }

end CommandLine

end Bindery

import Bindery.Artifact.Writing
import Bindery.Report.Line
import Bindery.Target.TemplateTarget

/-
  This file defines how a generation is written or previewed,
  and the report on it.

  Key definitions include:
    * `GenerateReport`
    * `GenerateReport.lines`
    * `Generation.publish`
-/

namespace Bindery

/- What became of a generation. -/
inductive GenerateReport where
| preview (target : String) (files : List (String × String))
| written (target output : String) (files : List String) (main : String)
deriving DecidableEq, Repr

namespace GenerateReport

/- A file and its content. -/
def fileLines (file : String × String) : Report :=
  [.divider file.1, .plain file.2]

/- The lines of the report. -/
def lines : GenerateReport → Report
| .preview target files =>
    files.flatMap fileLines ++
      [.divider "Summary",
        .plain
          (toString files.length ++ " files would be generated for " ++
            target)]
| .written target output files main =>
    .heading
        ("Generated " ++ target ++ " (" ++ toString files.length ++
          " files)") ::
      (files.map (fun file => .addedItem (Path.relativeTo output file)) ++
        [.blank, .keyValue "Primary" main])

end GenerateReport

/- The wording of a failure to write a generation. -/
def publishMessages (e : WriteError) : List String :=
  "Failed to write generated files" :: e.messages

/- Write a generation below a directory, or only preview it. -/
def Generation.publish
    (generation : Generation)
    (target output : String)
    (dryRun : Bool) : Writing GenerateReport :=
  if dryRun then
    pure (.preview target generation.artifacts.files)
  else do
    let files ← generation.artifacts.writeAll output
    pure
      (.written target output files (Path.join output generation.main))

end Bindery

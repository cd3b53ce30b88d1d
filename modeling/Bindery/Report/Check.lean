import Bindery.RenderContext
import Bindery.Report.Line
import Bindery.Schema.File

/-
  This file defines the report on a schema.

  Key definitions include:
    * `CheckReport`
    * `CheckReport.ofFile`
    * `CheckReport.lines`
-/

namespace Bindery

/- What is said about a schema. -/
structure CheckReport where
  path : String
  declCount : Nat
  namespaces : List String
  duplicates : List String
deriving DecidableEq, Repr

namespace CheckReport

/- The report on a schema that was read from a file. -/
def ofFile (file : SchemaFile) : CheckReport :=
  let names := file.schema.names
  ⟨file.path, names.length, Bindery.namespaces names,
    file.schema.duplicateNames⟩

/- The warning about a name that is declared more than once. -/
def duplicateWarning (name : String) : ReportLine :=
  .warning
    ("'" ++ name ++
      "' is declared more than once; the last declaration wins")

/- How a namespace is listed. -/
def namespaceItem (name : String) : ReportLine :=
  .listItem (if name.isEmpty then "(global)" else name)

/- The warnings, with a blank line after them if there are any. -/
def warningLines (report : CheckReport) : Report :=
  report.duplicates.map duplicateWarning ++
    (if report.duplicates.isEmpty then [] else [.blank])

/- The list of namespaces, if there are any. -/
def namespaceLines (report : CheckReport) : Report :=
  if report.namespaces.isEmpty then []
  else
    [.blank,
      .heading
        ("  Namespaces (" ++ toString report.namespaces.length ++ ")")] ++
      report.namespaces.map namespaceItem

/- The lines of the report. -/
def lines (report : CheckReport) : Report :=
  report.warningLines ++
    [.plain ("✓ " ++ report.path ++ " is valid"), .blank,
      .plain
        ("  " ++ toString report.declCount ++ " declaration" ++
          (if report.declCount = 1 then "" else "s"))] ++
    report.namespaceLines

end CheckReport

end Bindery

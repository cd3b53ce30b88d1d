/-
  This file defines the lines that reports are made of, and how
  a terminal shows them.

  Key definitions include:
    * `ReportLine`
    * `ReportLine.shown`
    * `Report`
    * `Report.output`
    * `Report.warnings`
-/

namespace Bindery

/- A line of a report; plain text may have several lines. -/
inductive ReportLine where
| heading (name : String)
| keyValue (key value : String)
| listItem (text : String)
| addedItem (text : String)
| warning (text : String)
| divider (label : String)
| plain (text : String)
| blank
deriving DecidableEq, Repr

/- A report from its first line to its last. -/
abbrev Report :=
  List ReportLine

namespace ReportLine

/- What a line shows on standard output; warnings show nothing there. -/
def shown : ReportLine → String
| .heading name => name ++ ":\n"
| .keyValue key value => key ++ ": " ++ value ++ "\n"
| .listItem text => "  - " ++ text ++ "\n"
| .addedItem text => "  + " ++ text ++ "\n"
| .warning _ => ""
| .divider label => "── " ++ label ++ " ──\n"
| .plain text => text ++ "\n"
| .blank => "\n"

/- The text of a warning. -/
def warning? : ReportLine → Option String
| .warning text => some text
| _ => none

end ReportLine

namespace Report

/- What a report shows on standard output. -/
def output (report : Report) : String :=
  String.join (report.map ReportLine.shown)

/- The warnings of a report. -/
def warnings (report : Report) : List String :=
  report.filterMap ReportLine.warning?

end Report

end Bindery

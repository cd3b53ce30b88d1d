import Bindery.App
import Bindery.Report.Line

/-
  This file defines the report on the targets of an
  application.

  Key definitions include:
    * `TargetsReport`
    * `TargetsReport.ofApp`
    * `TargetsReport.lines`
-/

namespace Bindery

/- Target ids with their providers, in order. -/
structure TargetsReport where
  targets : List (String × String)
deriving DecidableEq, Repr

namespace TargetsReport

/- The report on the targets of an application. -/
def ofApp (app : App) : TargetsReport :=
  ⟨app.registry.entries.map
    (fun (id, registration) => (id, registration.plugin))⟩

/- How a target is listed; a provider of its own name is left out. -/
def targetItem (target : String × String) : ReportLine :=
  .listItem
    (if target.1 = target.2 then target.1
     else target.1 ++ " (from " ++ target.2 ++ ")")

/- The lines of the report. -/
def lines (report : TargetsReport) : Report :=
  if report.targets.isEmpty then [.plain "No targets registered"]
  else
    .heading ("Targets (" ++ toString report.targets.length ++ ")") ::
      report.targets.map targetItem

end TargetsReport

end Bindery

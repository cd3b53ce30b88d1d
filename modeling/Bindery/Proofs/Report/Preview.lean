import Bindery.Proofs.Artifact.Aftermath
import Bindery.Proofs.Artifact.Feasibility
import Bindery.Proofs.Files.Relative
import Bindery.Report.Generate

/-
  This file says that a preview tells the truth: it announces
  the files that a run writes, under the same paths and with the
  texts that are there afterwards.

  Key definitions include:
    * `Report.addedItems`
    * `Report.dividers`
    * `Report.sections`
    * `FileSystem.HoldsText`

  Key theorems include:
    * `GenerateReport.sections_preview`
    * `GenerateReport.addedItems_written`
    * `Generation.publish_matches_preview`
-/

namespace Bindery

open FileSystem

------------------------------------------------------------
-- What a Report Lists
------------------------------------------------------------

namespace ReportLine

/- The text of an added item. -/
def addedItem? : ReportLine → Option String
| .addedItem text => some text
| _ => none

/- The label of a divider. -/
def divider? : ReportLine → Option String
| .divider label => some label
| _ => none

end ReportLine

namespace Report

/- The items that a report lists as added. -/
def addedItems (report : Report) : List String :=
  report.filterMap ReportLine.addedItem?

/- The labels of the dividers of a report. -/
def dividers (report : Report) : List String :=
  report.filterMap ReportLine.divider?

/- The dividers of a report with the plain text right below each. -/
def sections : Report → List (String × String)
| [] => []
| .divider label :: .plain text :: rest => (label, text) :: sections rest
| _ :: rest => sections rest

end Report

namespace GenerateReport

variable {target output main : String}

/- A preview has a section for each file and one for the summary. -/
theorem sections_preview (files : List (String × String)) :
    Report.sections (lines (.preview target files)) = files ++
      [("Summary", toString files.length ++
        " files would be generated for " ++ target)] := by
  have hFiles : ∀ rest, Report.sections
      (files.flatMap fileLines ++ rest) = files ++ rest.sections := by
    intro rest
    induction files with
    | nil => rfl
    | cons file others ih =>
        simp only [List.flatMap_cons, fileLines, List.cons_append,
          List.nil_append, Report.sections, ih]
  rw [lines, hFiles]
  rfl

theorem dividers_preview (files : List (String × String)) :
    Report.dividers (lines (.preview target files)) =
      files.map Prod.fst ++ ["Summary"] := by
  have hFiles : Report.dividers (files.flatMap fileLines) =
      files.map Prod.fst := by
    induction files with
    | nil => rfl
    | cons file others ih =>
        simpa [Report.dividers, fileLines, List.filterMap_cons,
          ReportLine.divider?] using ih
  rw [lines, Report.dividers, List.filterMap_append]
  exact congrArg (· ++ ["Summary"]) hFiles

/- A written report lists its files as seen from the directory. -/
theorem addedItems_written (files : List String) :
    Report.addedItems (lines (.written target output files main)) =
      files.map (Path.relativeTo output) := by
  simp [lines, Report.addedItems, ReportLine.addedItem?,
    List.filterMap_cons, List.filterMap_map, Function.comp_def]

/- Files with ordinary paths are listed by these paths. -/
theorem addedItems_places
    {set : ArtifactSet}
    (hOutput : output ≠ "")
    (hPaths : ∀ path ∈ set.paths, Path.IsOrdinary path) :
    Report.addedItems
        (lines (.written target output (set.places output) main)) =
      set.paths := by
  rw [addedItems_written, ArtifactSet.places, List.map_map]
  calc set.paths.map (Path.relativeTo output ∘ Path.join output)
      = set.paths.map id := List.map_congr_left fun path hPath =>
        Path.relativeTo_join hOutput (hPaths path hPath)
    _ = set.paths := List.map_id _

end GenerateReport

------------------------------------------------------------
-- What a Run Writes
------------------------------------------------------------

/-
  A path leads to a file with a text, which is read by that path
  unless it is too long for the system.
-/
structure FileSystem.HoldsText
    (fs : FileSystem)
    (path text : String) : Prop where
  lies : ∃ dir name, fs.LiesIn path dir name ∧
    fs.entryAt? (dir ++ [name]) = some (.file text.toUTF8)
  reads : Text.byteLength path.toList ≤ maxPathLength →
    fs.readText path = .ok text

/- Each file of a set that has been written is there. -/
theorem ArtifactSet.holdsText_of_writeAll
    {set : ArtifactSet}
    {root : String}
    {fs fs' : FileSystem}
    {written : List String}
    (hLinks : NoLinks fs)
    (hDistinct : DistinctPlaces set.files)
    (h : set.writeAll root fs = .ok written fs')
    {file : String × String}
    (hFile : file ∈ set.files) :
    fs'.HoldsText (Path.join root file.1) file.2 := by
  rcases (exists_hasWritten hLinks (List.ne_nil_of_mem hFile) hDistinct
    h).2 with ⟨grown, base, name, hWritten⟩
  rcases hWritten.liesIn_place hDistinct hFile with
    ⟨dir, last, hLies, hPlace⟩
  refine ⟨⟨dir, last, hLies, ?_⟩, hWritten.readText_place hDistinct hFile⟩
  rw [hPlace, hWritten.entryAt?_file hDistinct hFile]

namespace Generation

/-
  If a generation with ordinary paths is written, its preview
  changes nothing and has told the truth: the same paths in the
  same order, the same number of files, and under each path the
  text that its file has afterwards.
-/
theorem publish_matches_preview
    (generation : Generation)
    (target output : String)
    (fs fs' : FileSystem)
    (report : GenerateReport)
    (hLinks : NoLinks fs)
    (hOutput : output ≠ "")
    (hPaths : ∀ path ∈ generation.artifacts.paths,
      Path.IsOrdinary path)
    (h : generation.publish target output false fs = .ok report fs') :
    ∃ preview,
      generation.publish target output true fs = .ok preview fs ∧
      Report.dividers preview.lines =
        Report.addedItems report.lines ++ ["Summary"] ∧
      (∃ count,
        report.lines.head? = some (.heading
          ("Generated " ++ target ++ " (" ++ toString count ++
            " files)")) ∧
        preview.lines.getLast? = some (.plain
          (toString count ++ " files would be generated for " ++
            target)) ∧
        count = (Report.addedItems report.lines).length) ∧
      (Report.sections preview.lines).map Prod.fst =
        Report.dividers preview.lines ∧
      ∀ file ∈ (Report.sections preview.lines).dropLast,
        fs'.HoldsText (Path.join output file.1) file.2 := by
  rcases Writing.bind_eq_ok_iff.mp h with ⟨written, middle, hWrite, hEnd⟩
  rcases EStateM.Result.ok.inj hEnd with ⟨rfl, rfl⟩
  have hDistinct := distinctPlaces_of_isOrdinary hPaths
  obtain rfl := ArtifactSet.eq_places_of_ok hWrite
  have hItems : Report.addedItems (GenerateReport.lines (.written target
      output (generation.artifacts.places output)
        (Path.join output generation.main))) =
      generation.artifacts.paths :=
    GenerateReport.addedItems_places hOutput hPaths
  refine ⟨.preview target generation.artifacts.files, rfl, ?_, ?_, ?_, ?_⟩
  · rw [hItems, GenerateReport.dividers_preview]
    rfl
  · refine ⟨generation.artifacts.files.length, ?_, ?_, ?_⟩
    · simp [GenerateReport.lines, ArtifactSet.places, ArtifactSet.paths,
        Keyed.keys]
    · simp [GenerateReport.lines]
    · rw [hItems, ArtifactSet.paths, Keyed.keys, List.length_map]
  · rw [GenerateReport.sections_preview,
      GenerateReport.dividers_preview, List.map_append]
    rfl
  · intro file hFile
    rw [GenerateReport.sections_preview, List.dropLast_concat] at hFile
    exact ArtifactSet.holdsText_of_writeAll hLinks hDistinct hWrite hFile

/- Two files below a directory with a dot and a slash in its path. -/
theorem publish_matches_preview_bare :
    let generation : Generation :=
      ⟨ArtifactSet.ofList
        [("koinos.go", "package"), ("rt/basetypes.go", "rt")],
        "koinos.go"⟩
    ∃ report preview fs',
      generation.publish "golang" "./build/" false bare =
        .ok report fs' ∧
      generation.publish "golang" "./build/" true bare =
        .ok preview bare ∧
      Report.addedItems report.lines =
        ["koinos.go", "rt/basetypes.go"] ∧
      Report.dividers preview.lines =
        ["koinos.go", "rt/basetypes.go", "Summary"] ∧
      fs'.HoldsText "./build/rt/basetypes.go" "rt" := by
  intro generation
  have hEnd : (match generation.publish "golang" "./build/" false bare
      with
    | .ok report _ => Report.addedItems report.lines
    | .error _ _ => []) = ["koinos.go", "rt/basetypes.go"] := by
    decide +kernel
  cases hRun : generation.publish "golang" "./build/" false bare with
  | error e fs' => simp [hRun] at hEnd
  | ok report fs' =>
      simp only [hRun] at hEnd
      rcases publish_matches_preview generation "golang" "./build/" bare
          fs' report noLinks_bare (by decide) (by decide +kernel) hRun with
        ⟨preview, hPreview, hDividers, -, -, hTexts⟩
      refine ⟨report, preview, fs', rfl, hPreview, hEnd,
        by rw [hDividers, hEnd]; rfl, ?_⟩
      rcases EStateM.Result.ok.inj hPreview with ⟨rfl, -⟩
      exact hTexts ("rt/basetypes.go", "rt") (by decide +kernel)

end Generation

end Bindery

import Bindery.Proofs.Artifact.Missing
import Bindery.Proofs.Artifact.StagingName

/-
  This file says that it makes no difference whether an output
  directory is missing or empty: either way a set of files
  cannot be written, or the same files are there in the end.

  Key definitions include:
    * `AgreeBelow`

  Key theorems include:
    * `exists_isStaged_of_writeAll`
    * `ArtifactSet.writeAll_agrees`
-/

namespace Bindery

open FileSystem
open Bindery.Path (Step)

------------------------------------------------------------
-- A Missing Output Directory and an Empty One
------------------------------------------------------------

/- The file system with an empty output directory. -/
def FileSystem.withRoot
    (fs : FileSystem)
    (dir : Location)
    (name : String) : FileSystem :=
  fs.put (dir ++ [name]) (.directory [])

namespace IsMissing

variable {fs : FileSystem} {root name path : String}
variable {dir : Location}

theorem entryAt?_withRoot
    (h : IsMissing fs root dir name)
    (loc : Location) :
    (fs.withRoot dir name).entryAt? loc =
      if loc = dir ++ [name] then some .directory
      else fs.entryAt? loc :=
  entryAt?_put_directory h.lies.directory (by simp [h.none]) loc

theorem entryAt?_withRoot_append
    (h : IsMissing fs root dir name)
    (below : List String) :
    (fs.withRoot dir name).entryAt? (dir ++ [name] ++ below) =
      if below = [] then some .directory else Option.none := by
  rw [h.entryAt?_withRoot, h.entryAt?_append]
  simp

theorem keeps (h : IsMissing fs root dir name) :
    Keeps fs (fs.withRoot dir name) :=
  (Grows.of_put_directory h.lies.directory h.none).keeps

theorem noLinksBelow (h : IsMissing fs root dir name) :
    NoLinksBelow (fs.withRoot dir name) (dir ++ [name]) := by
  intro below target
  rw [h.entryAt?_withRoot_append]
  split <;> simp

/- Once it is there, the path leads to it. -/
theorem leadsTo_withRoot (h : IsMissing fs root dir name) :
    (fs.withRoot dir name).LeadsTo root (dir ++ [name]) :=
  (h.lies.mono h.keeps).leadsTo
    (by rw [h.entryAt?_withRoot, if_pos rfl])

/- Paths below a directory that is missing only have to stay inside. -/
theorem checkPaths_eq_ok_iff
    {paths : List String}
    (h : IsMissing fs root dir name) :
    checkPaths fs root paths = .ok () ↔
      ∀ path ∈ paths, Path.StaysInside path :=
  checkPaths_of_not_leadsTo h.not_leadsTo h.ordinary.ne_empty
    h.exists?_eq_false

/- In an empty directory there is room for each file. -/
theorem isWritable_withRoot
    (h : IsMissing fs root dir name)
    (hEnds : Path.EndsInName path)
    (hFits : ∀ n ∈ Path.names path, FitsName n)
    (hCheck : checkPath (Path.join root path) = .ok ()) :
    IsWritable (fs.withRoot dir name) root (dir ++ [name]) path := by
  rcases hEnds.exists_names with ⟨init, last, hNames⟩
  exact ⟨hEnds, hFits, hCheck,
    isFree_of_vacant h.entryAt?_withRoot_append (by simp [hNames])⟩

/- In an empty directory nothing is in the way of a path. -/
theorem checkPaths_withRoot
    {paths : List String}
    (h : IsMissing fs root dir name)
    (hInside : ∀ path ∈ paths, Path.StaysInside path)
    (hWritable : ∀ path ∈ paths,
      IsWritable (fs.withRoot dir name) root (dir ++ [name]) path) :
    checkPaths (fs.withRoot dir name) root paths = .ok () := by
  rw [Bindery.checkPaths_eq_ok_iff]
  intro path hPath
  have hHere := hWritable path hPath
  exact ⟨hInside path hPath,
    (checkDestination_eq_ok_iff h.leadsTo_withRoot h.noLinksBelow
      h.ordinary.ne_empty (hInside path hPath) hHere.fits
      hHere.check).mpr hHere.free⟩

end IsMissing

------------------------------------------------------------
-- Staging for the One and for the Other
------------------------------------------------------------

section Transfer

variable {set : ArtifactSet} {root name staging : String}
variable {fs staged : FileSystem} {dir : Location}

/- A set that has been written has been staged. -/
theorem exists_isStaged_of_writeAll
    {fs' : FileSystem}
    {written : List String}
    (hFiles : set.files ≠ [])
    (hParentCheck : checkPath (stagingParent root) = .ok ())
    (hParent : fs.LeadsTo (stagingParent root) dir)
    (h : set.writeAll root fs = .ok written fs') :
    ∃ staging staged, IsStaged set root fs fs dir staging staged := by
  rcases ArtifactSet.exists_hasStaging_of_ok hFiles h with
    ⟨grown, base, staging, published, hStaging, hPublish, -, -⟩
  have hCreate :=
    createDirectories_eq_ok_of_leadsTo hParentCheck hParent
  have hCreated := hStaging.parent
  rw [hCreate] at hCreated
  obtain rfl : fs = grown := by simpa using hCreated
  obtain rfl := hStaging.isStaging.parentLeads.unique hParent
  rcases hStaging.exists_isStaged hPublish with ⟨staged, hStaged, -⟩
  exact ⟨staging, staged, hStaged⟩

/- A set that has been staged once can be staged elsewhere. -/
theorem IsStaged.again
    {fs' : FileSystem}
    (h : IsStaged set root fs fs dir staging staged)
    (hChecks : checkPaths fs' root set.paths = .ok ())
    (hParent : fs'.LeadsTo (stagingParent root) dir)
    (hName :
      freshStagingName
          (takenNames fs' (stagingParent root) ++ set.mentioned root) =
        freshStagingName
          (takenNames fs (stagingParent root) ++ set.mentioned root)) :
    ∃ staged', IsStaged set root fs' fs' dir staging staged' := by
  have hCreate := createDirectories_eq_ok_of_leadsTo
    h.isStaging.parentCheck hParent
  have hStaging := hasStaging_of_leadsTo hChecks hCreate
    h.isStaging.parentCheck hParent (h.name_eq.trans hName.symm)
    h.isStaging.check h.isStaging.fits
  exact hStaging.exists_isStaged_of_isStageable h.isStageable

namespace IsMissing

theorem freshStagingName_withRoot
    (h : IsMissing fs root dir name)
    (set : ArtifactSet) :
    freshStagingName
        (takenNames (fs.withRoot dir name) (stagingParent root) ++
          set.mentioned root) =
      freshStagingName
        (takenNames fs (stagingParent root) ++ set.mentioned root) := by
  rcases leadsTo_stagingParent h.check h.lies with
    ⟨hParentCheck, hParent⟩
  exact freshStagingName_put_directory hParentCheck hParent h.none
    (List.mem_append_left _ h.lies.mem_names)

/- There is room for a staged set in an empty output directory. -/
theorem isWritable_of_isStaged
    (h : IsMissing fs root dir name)
    {fs' : FileSystem}
    (hStaged : IsStaged set root fs' fs' dir staging staged)
    (hLength : ∀ path ∈ set.paths,
      Text.byteLength (Path.join root path).toList ≤ maxPathLength) :
    ∀ path ∈ set.paths,
      IsWritable (fs.withRoot dir name) root (dir ++ [name]) path := by
  intro path hPath
  have hStageable := hStaged.isStageable
  exact h.isWritable_withRoot (hStageable.ends path hPath)
    (hStageable.names path hPath)
    (checkPath_join h.check hStaged.staging_ne_empty
      (hStaged.inside path hPath).relative
      (hStageable.check path hPath) (hLength path hPath))

/- What is staged for a missing output directory, ... -/
theorem isStaged_withRoot
    (h : IsMissing fs root dir name)
    (hStaged : IsStaged set root fs fs dir staging staged)
    (hLength : ∀ path ∈ set.paths,
      Text.byteLength (Path.join root path).toList ≤ maxPathLength) :
    ∃ staged', IsStaged set root (fs.withRoot dir name)
      (fs.withRoot dir name) dir staging staged' :=
  hStaged.again
    (h.checkPaths_withRoot hStaged.inside
      (h.isWritable_of_isStaged hStaged hLength))
    (hStaged.isStaging.parentLeads.mono h.keeps)
    (h.freshStagingName_withRoot set)

/- ... can be staged for an empty one, and the other way round. -/
theorem isStaged_of_withRoot
    (h : IsMissing fs root dir name)
    (hStaged : IsStaged set root (fs.withRoot dir name)
      (fs.withRoot dir name) dir staging staged) :
    ∃ staged', IsStaged set root fs fs dir staging staged' :=
  hStaged.again (h.checkPaths_eq_ok_iff.mpr hStaged.inside)
    (leadsTo_stagingParent h.check h.lies).2
    (h.freshStagingName_withRoot set).symm

/- A staged set is written to an empty output directory. -/
theorem writeAll_withRoot_of_isStaged
    (h : IsMissing fs root dir name)
    (hFiles : set.files ≠ [])
    (hDistinct : DistinctPlaces set.files)
    (hStaged : IsStaged set root (fs.withRoot dir name)
      (fs.withRoot dir name) dir staging staged)
    (hLength : ∀ path ∈ set.paths,
      Text.byteLength (Path.join root path).toList ≤ maxPathLength) :
    ∃ fs', set.writeAll root (fs.withRoot dir name) =
        .ok (set.places root) fs' ∧
      ∀ below, fs'.entryAt? (dir ++ [name] ++ below) =
        overlay [] set.files (FileSystem.entryAt? bare) below := by
  have hApart : ∀ below,
      ¬ dir ++ [staging] <+: dir ++ [name] ++ below := by
    intro below hPrefix
    rw [List.append_assoc, List.prefix_append_right_inj] at hPrefix
    obtain rfl : staging = name := by simpa using hPrefix
    exact hStaged.isStaging.fresh
      (List.mem_append_left _ h.lies.mem_names)
  rcases hStaged.writeAll_over hFiles hDistinct h.check
      h.leadsTo_withRoot h.noLinksBelow (fun path _ => hApart _)
      (fun file hFile => h.isWritable_of_isStaged hStaged hLength
        file.1 (List.mem_map_of_mem hFile)) with
    ⟨fs', hWrite, hEntries⟩
  refine ⟨fs', hWrite, fun below => ?_⟩
  rw [hEntries, if_neg (hApart below), overlay_append]
  apply overlay_congr
  rw [h.entryAt?_withRoot_append, entryAt?_bare]

end IsMissing

end Transfer

------------------------------------------------------------
-- Writing to the One and to the Other
------------------------------------------------------------

/-
  Two runs fail, or they succeed with the same answer and leave
  the same tree below a location.
-/
inductive AgreeBelow (place : Location) :
    EStateM.Result WriteError FileSystem (List String) →
    EStateM.Result WriteError FileSystem (List String) → Prop where
| failed {e e' fs fs'} :
    AgreeBelow place (.error e fs) (.error e' fs')
| succeeded {written fs fs'} :
    (∀ below, below ≠ [] →
      FileSystem.entryAt? fs (place ++ below) =
        FileSystem.entryAt? fs' (place ++ below)) →
    AgreeBelow place (.ok written fs) (.ok written fs')

namespace ArtifactSet

variable {set : ArtifactSet} {root : String} {fs : FileSystem}

/- What can be staged is written to the one and to the other. -/
theorem agreeBelow_of_isStaged
    {staged : FileSystem}
    {dir : Location}
    {name staging : String}
    (h : IsMissing fs root dir name)
    (hFiles : set.files ≠ [])
    (hDistinct : DistinctPlaces set.files)
    (hLength : ∀ path ∈ set.paths,
      Text.byteLength (Path.join root path).toList ≤ maxPathLength)
    (hStaged : IsStaged set root fs fs dir staging staged) :
    AgreeBelow (dir ++ [name]) (set.writeAll root fs)
      (set.writeAll root (fs.withRoot dir name)) := by
  rcases h.isStaged_withRoot hStaged hLength with ⟨staged', hOther⟩
  rcases h.writeAll_of_isStaged hFiles hStaged with
    ⟨fs', hWrite, -, hEntries⟩
  rcases h.writeAll_withRoot_of_isStaged hFiles hDistinct hOther hLength
    with ⟨present', hPresent, hOtherEntries⟩
  rw [hWrite, hPresent]
  refine .succeeded fun below _ => ?_
  rw [hEntries, hOtherEntries]

/- What cannot be staged is written to neither. -/
theorem agreeBelow_of_not_isStaged
    {dir : Location}
    {name : String}
    (h : IsMissing fs root dir name)
    (hFiles : set.files ≠ [])
    (hNot : ∀ staging staged,
      ¬ IsStaged set root fs fs dir staging staged) :
    AgreeBelow (dir ++ [name]) (set.writeAll root fs)
      (set.writeAll root (fs.withRoot dir name)) := by
  rcases leadsTo_stagingParent h.check h.lies with
    ⟨hParentCheck, hParent⟩
  cases hWrite : set.writeAll root fs with
  | ok written fs' =>
      rcases exists_isStaged_of_writeAll hFiles hParentCheck hParent
          hWrite with
        ⟨staging, staged, hStaged⟩
      exact absurd hStaged (hNot staging staged)
  | error e fs' =>
      cases hPresent : set.writeAll root (fs.withRoot dir name) with
      | error cause present' => exact .failed
      | ok written present' =>
          rcases exists_isStaged_of_writeAll hFiles hParentCheck
              (hParent.mono h.keeps) hPresent with
            ⟨staging, staged, hStaged⟩
          rcases h.isStaged_of_withRoot hStaged with ⟨staged', hOther⟩
          exact absurd hOther (hNot staging staged')

/-
  A set of files whose paths have different places is written
  below an ordinary path with the same outcome and the same tree
  whether the path is missing or an empty directory has just
  been created there.
-/
theorem writeAll_agrees
    (set : ArtifactSet)
    (root : String)
    (fs present : FileSystem)
    (dir : Location)
    (name : String)
    (hRoot : Path.IsOrdinaryRoot root)
    (hMade : fs.makeDirectory root = .ok present)
    (hLies : fs.LiesIn root dir name)
    (hPlain : ∀ path ∈ set.paths, ∀ other ∈ set.paths,
      Path.plain path = Path.plain other → path = other)
    (hLength : ∀ path ∈ set.paths,
      Text.byteLength (Path.join root path).toList ≤ maxPathLength) :
    AgreeBelow (dir ++ [name]) (set.writeAll root fs)
      (set.writeAll root present) := by
  rcases makeDirectory_eq_ok_iff.mp hMade with
    ⟨hCheck, other, last, hOther, hNone, hPresent⟩
  rcases hLies.unique hOther with ⟨rfl, rfl⟩
  obtain rfl : present = fs.withRoot dir name := hPresent
  have hMissing : IsMissing fs root dir name :=
    ⟨hRoot, hCheck, hLies, hNone⟩
  by_cases hFiles : set.files = []
  · rw [writeAll_of_files_eq_nil hFiles, writeAll_of_files_eq_nil hFiles]
    refine .succeeded fun below hBelow => ?_
    rw [hMissing.entryAt?_append, hMissing.entryAt?_withRoot_append,
      if_neg hBelow]
  by_cases hSome : ∃ staging staged,
      IsStaged set root fs fs dir staging staged
  · rcases hSome with ⟨staging, staged, hStaged⟩
    exact agreeBelow_of_isStaged hMissing hFiles
      (distinctPlaces_of_plain hStaged.inside hPlain) hLength hStaged
  · exact agreeBelow_of_not_isStaged hMissing hFiles
      fun staging staged hStaged => hSome ⟨staging, staged, hStaged⟩

/- Files with odd paths, and a file in the way of another one. -/
theorem writeAll_agrees_bare :
    AgreeBelow ["out"]
        ((ofList [("a//b", "x"), ("./c", "y")]).writeAll "out" bare)
        ((ofList [("a//b", "x"), ("./c", "y")]).writeAll "out"
          (bare.put ["out"] (.directory []))) ∧
      AgreeBelow ["out"]
        ((ofList [("a", "x"), ("a/b", "y")]).writeAll "out" bare)
        ((ofList [("a", "x"), ("a/b", "y")]).writeAll "out"
          (bare.put ["out"] (.directory []))) := by
  have hSteps : Path.steps "out" = [] ++ [.enter "out"] := by decide
  have hLies : bare.LiesIn "out" [] "out" :=
    liesIn_of_forward (by decide) hSteps (by decide) (by decide) rfl
  have hMade : bare.makeDirectory "out" =
      .ok (bare.put ["out"] (.directory [])) :=
    makeDirectory_eq_ok_iff.mpr
      ⟨by decide, [], "out", hLies, rfl, rfl⟩
  have hRoot : Path.IsOrdinaryRoot "out" :=
    ⟨"out", by decide, Or.inl rfl⟩
  exact ⟨writeAll_agrees _ "out" bare _ [] "out" hRoot hMade hLies
      (by decide +kernel) (by decide +kernel),
    writeAll_agrees _ "out" bare _ [] "out" hRoot hMade hLies
      (by decide +kernel) (by decide +kernel)⟩

end ArtifactSet

end Bindery

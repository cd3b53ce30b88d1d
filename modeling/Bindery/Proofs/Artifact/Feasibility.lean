import Bindery.Proofs.Artifact.LinkTargets
import Bindery.Proofs.Artifact.Success
import Bindery.Proofs.Files.Limits
import Bindery.Proofs.Files.Ordinary

/-
  This file says when a set of files can be written: when no
  file stands where a directory is needed and no directory
  where a file is.  Files that have been staged can be moved.

  Key definitions include:
    * `ArtifactSet.IsStageable`
    * `ArtifactSet.stagingPlace`

  Key theorems include:
    * `IsStaged.isFree_destination`
    * `IsStaged.publish_over_succeeds`
    * `IsStaged.publish_new_succeeds`
    * `ArtifactSet.exists_isStaged`
    * `ArtifactSet.isFree_of_writeAll`
    * `ArtifactSet.writeAll_succeeds_iff`
-/

namespace Bindery

open FileSystem
open Bindery.Path (Step EndsIn Component)

------------------------------------------------------------
-- Ordinary Paths
------------------------------------------------------------

namespace Path.IsOrdinary

variable {path : String}

theorem staysInside (h : IsOrdinary path) : StaysInside path where
  ne_empty := h.ne_empty
  relative := h.isAbsolute
  forward := h.forward

theorem endsInName (h : IsOrdinary path) : EndsInName path where
  noSlash := h.endsInSlash
  way := by
    rcases (List.eq_nil_or_concat' _).resolve_left h.names_ne_nil with
      ⟨init, name, hNames⟩
    refine ⟨init.map .enter, name, ?_⟩
    rw [h.steps_eq_map_enter, hNames]
    simp

end Path.IsOrdinary

/- Ordinary paths that differ have different places. -/
theorem distinctPlaces_of_isOrdinary
    {set : ArtifactSet}
    (hPaths : ∀ path ∈ set.paths, Path.IsOrdinary path) :
    DistinctPlaces set.files := by
  apply distinctPlaces_of_plain fun path hPath =>
    (hPaths path hPath).staysInside
  intro path hPath other hOther hPlain
  apply (hPaths path hPath).eq_of_names (hPaths other hOther)
  rw [plain_of_staysInside (hPaths path hPath).staysInside,
    plain_of_staysInside (hPaths other hOther).staysInside] at hPlain
  exact (List.map_inj_right fun _ _ => Component.normal.inj).mp hPlain

------------------------------------------------------------
-- Staged Files Can Be Moved
------------------------------------------------------------

namespace IsStaged

variable {set : ArtifactSet} {root name : String}
variable {fs grown staged : FileSystem} {base : Location}

/-
  The checks were made before directories were created and files
  were staged; below the output directory they still hold then.
-/
theorem isFree_destination
    (h : IsStaged set root fs grown base name staged)
    (hLinks : NoLinks fs)
    (hForward : Path.Forward root)
    (hRootNe : root ≠ "")
    (hRoot : staged.LeadsTo root (destination fs.home root))
    {path : String}
    (hPath : path ∈ set.paths)
    (hFits : Path.FitsLimits (Path.join root path))
    (hNames : Path.names path ≠ []) :
    IsFree staged (destination fs.home root) (Path.names path) := by
  have hInside := h.inside path hPath
  have hNamesFit :=
    ((fitsName_join_iff hRootNe hInside.relative).mp hFits.names).2
  have hGrows := createStagingParent_grows hLinks hForward
  rw [Writing.final_of_ok h.parent] at hGrows
  have hSame : ∀ below, below <+: Path.names path → below ≠ [] →
      staged.entryAt? (destination fs.home root ++ below) =
        fs.entryAt? (destination fs.home root ++ below) := by
    intro below hBelow hNe
    rw [h.entryAt?_outside fun hPrefix => h.not_prefix_place hPath
      (hPrefix.trans ((List.prefix_append_right_inj _).mpr hBelow))]
    cases hOld : fs.entryAt? (destination fs.home root ++ below) with
    | some e => exact hGrows.kept _ e hOld
    | none =>
        -- what is new is the output directory or above it
        by_contra hNew
        rcases hGrows.new _ hOld hNew with ⟨-, hOn⟩
        have hLength := hOn.length_le
        rw [List.length_append] at hLength
        exact hNe (List.length_eq_zero_iff.mp (by omega))
  have hGrown : grown.entryAt? (destination fs.home root) =
      some .directory := by
    rw [← h.entryAt?_outside h.not_prefix_destination, hRoot.directory]
  refine IsFree.of_below ?_ hRoot.directory hNames hSame
  rcases hGrows.isOpen hGrown _ (List.prefix_refl _) with
    hNone | hBefore
  · exact isFree_of_absent hNone _
  · have hLeads := leadsTo_of_forward hForward hRoot.fitsName hBefore
    exact (checkDestination_eq_ok_iff hLeads
      (hLinks.below _) hRootNe hInside hNamesFit hFits.check).mp
        (checkPaths_eq_ok_iff.mp h.checks path hPath).2

/- Files that are staged can be moved to where a directory is. -/
theorem publish_over_succeeds
    (h : IsStaged set root fs grown base name staged)
    (hLinks : NoLinks fs)
    (hForward : Path.Forward root)
    (hFiles : set.files ≠ [])
    (hDistinct : DistinctPlaces set.files)
    (hFits : ∀ path ∈ set.paths,
      Path.FitsLimits (Path.join root path))
    (hExists : staged.exists? root = true) :
    ∃ published,
      set.publish root (Path.join (stagingParent root) name)
        (grown.withStaging base name) = .ok () published := by
  rw [h.publish_eq_moveFiles hExists]
  have hRootNe := ne_empty_of_exists? hExists
  have hRoot := h.leadsTo_root hLinks hForward hFiles hExists
  apply moveFiles_succeeds (h.isMoving hLinks hRootNe) hRoot
    (fun file hFile => List.mem_map_of_mem hFile)
    (fun file hFile => h.entryAt?_file hDistinct hFile)
    hDistinct h.noneAbove (fun file hFile => (h.of_mem hFile).2.2)
  intro file hFile
  rcases h.of_mem hFile with ⟨hEnds, hNames, -⟩
  rcases hEnds.exists_names with ⟨init, last, hSplit⟩
  have hPath : file.1 ∈ set.paths := List.mem_map_of_mem hFile
  exact ⟨hEnds, hNames, (hFits _ hPath).check,
    h.isFree_destination hLinks hForward hRootNe hRoot hPath
      (hFits _ hPath) (by simp [hSplit])⟩

/- The output directory lies beside the staging directory. -/
theorem exists_liesIn_root
    (h : IsStaged set root fs grown base name staged)
    (hLinks : NoLinks fs)
    (hRoot : Path.IsOrdinaryRoot root)
    (hFits : ∀ n ∈ Path.names root, FitsName n) :
    ∃ last, staged.LiesIn root base last := by
  have hForward := hRoot.forward
  rcases (List.eq_nil_or_concat' _).resolve_left hRoot.names_ne_nil with
    ⟨init, last, hNames⟩
  have hSteps := hRoot.steps
  rw [hNames, List.map_append, List.map_singleton] at hSteps
  have hMoves := Path.moves_eq_map_enter hForward
  rw [hNames, List.map_append, List.map_singleton] at hMoves
  rcases stagingParent_of_moves root (by simp [hMoves]) with
    ⟨⟨step, hStep⟩, hAbsolute, -⟩
  rcases List.append_inj' (hMoves.symm.trans hStep) rfl with
    ⟨hParentMoves, -⟩
  have hParent : base = startOf fs.home root ++ init := by
    rw [h.isStaging.parentLeads.eq_destination (hLinks.grows h.grows),
      h.grows.home, destination, ← Path.arrive_moving,
      Path.moving_steps, ← hParentMoves, Path.arrive_map_enter,
      startOf_eq fs hAbsolute]
  refine ⟨last, liesIn_of_forward hForward hSteps hFits ?_
    (directory_of_append [name] (by simp) ?_)⟩
  · rw [destination_of_forward hForward, h.home, hNames, hParent,
      List.append_assoc]
  · rw [h.leadsToStaging.directory]
    simp

/- A staging directory can be moved to where nothing is. -/
theorem publish_new_succeeds
    (h : IsStaged set root fs grown base name staged)
    (hLinks : NoLinks fs)
    (hRoot : Path.IsOrdinaryRoot root)
    (hFits : Path.FitsLimits root)
    (hExists : staged.exists? root = false) :
    ∃ published,
      set.publish root (Path.join (stagingParent root) name)
        (grown.withStaging base name) = .ok () published := by
  rw [ArtifactSet.publish_of_staged h.stage,
    if_neg (by simp [hExists])]
  rcases h.exists_liesIn_root hLinks hRoot hFits.names with
    ⟨last, hLies⟩
  have hNone : staged.entryAt? (base ++ [last]) = none := by
    have hIff := hLies.exists?_iff hFits.check hRoot.endsInSlash
      fun target => h.noLinks hLinks _ target
    by_contra hSome
    simp [hIff.mpr hSome] at hExists
  have hStagingLies := h.isStaging.liesIn
    (h.isStaging.grows.keeps.trans h.fills.keeps)
  rcases rename_directory h.isStaging.check
      hFits.check hStagingLies hLies h.leadsToStaging.directory
      hNone with
    ⟨published, hRename, -⟩
  exact ⟨published, Writing.perform_eq_ok_iff.mpr hRename⟩

end IsStaged

------------------------------------------------------------
-- Sets That Can Be Staged
------------------------------------------------------------

/-
  Files can be written below a staging directory: their paths
  end in names, they are not too long, and none of them goes on
  from another one.
-/
structure ArtifactSet.IsStageable
    (set : ArtifactSet)
    (staging : String) : Prop where
  ends : ∀ path ∈ set.paths, Path.EndsInName path
  names : ∀ path ∈ set.paths, ∀ n ∈ Path.names path, FitsName n
  check : ∀ path ∈ set.paths,
    checkPath (Path.join staging path) = .ok ()
  apart : NoneAbove set.paths

section Stageable

variable {set : ArtifactSet} {root name : String}
variable {fs grown staged : FileSystem} {base : Location}

theorem IsStaged.isStageable
    (h : IsStaged set root fs grown base name staged) :
    set.IsStageable (Path.join (stagingParent root) name) := by
  have hAll : ∀ path ∈ set.paths, Path.EndsInName path ∧
      (∀ n ∈ Path.names path, FitsName n) ∧
      checkPath (Path.join (Path.join (stagingParent root) name)
        path) = .ok () := by
    intro path hPath
    rcases List.mem_map.mp hPath with ⟨file, hFile, rfl⟩
    exact h.of_mem hFile
  exact ⟨fun path hPath => (hAll path hPath).1,
    fun path hPath => (hAll path hPath).2.1,
    fun path hPath => (hAll path hPath).2.2, h.noneAbove⟩

/- Into a new staging directory such files can be written. -/
theorem HasStaging.exists_isStaged_of_isStageable
    (h : HasStaging set root fs grown base name)
    (hStageable :
      set.IsStageable (Path.join (stagingParent root) name)) :
    ∃ staged, IsStaged set root fs grown base name staged := by
  have hWritable : ∀ file ∈ set.files, IsWritable
      (grown.withStaging base name)
      (Path.join (stagingParent root) name)
      (base ++ [name]) file.1 := by
    intro file hFile
    have hPath : file.1 ∈ set.paths := List.mem_map_of_mem hFile
    have hEnds := hStageable.ends _ hPath
    rcases hEnds.exists_names with ⟨init, last, hNames⟩
    exact ⟨hEnds, hStageable.names _ hPath, hStageable.check _ hPath,
      isFree_of_vacant h.entryAt?_withStaging_append
        (by simp [hNames])⟩
  rcases stageFiles_succeeds h.leadsTo h.isStaging.noLinksBelow
      h.staging_ne_empty
      (fun file hFile => h.inside file.1 (List.mem_map_of_mem hFile))
      hWritable hStageable.apart with
    ⟨staged, hStage⟩
  exact ⟨staged, h, hStage⟩

/- What is where in the staging directory, seen from there. -/
theorem IsStaged.entryAt?_append
    (h : IsStaged set root fs grown base name staged)
    (below : List String) :
    staged.entryAt? (base ++ [name] ++ below) =
      overlay [] set.files (FileSystem.entryAt? bare) below := by
  rw [h.entryAt?_staged, overlay_append]
  apply overlay_congr
  rw [h.entryAt?_withStaging_append, entryAt?_bare]

end Stageable

------------------------------------------------------------
-- Staging a Set
------------------------------------------------------------

/- The directories above the output directory can be created. -/
theorem createStagingParent_succeeds
    {fs : FileSystem}
    {root : String}
    (hHome : fs.entryAt? fs.home = some .directory)
    (hLinks : NoLinks fs)
    (hRoot : Path.IsOrdinaryRoot root)
    (hFits : Path.FitsLimits root)
    (hOpen : fs.IsOpen (destination fs.home root)) :
    ∃ grown, createDirectories (stagingParent root) fs =
      .ok () grown := by
  have hForward := hRoot.forward
  have hMoves := Path.moves_eq_map_enter hForward
  rcases stagingParent_of_moves root
      (by simp [hMoves, hRoot.names_ne_nil]) with
    ⟨⟨step, hStep⟩, hAbsolute, hDot | ⟨hTrimmed, hStart⟩⟩
  · have hHere : fs.LeadsTo "." (destination fs.home ".") :=
      leadsTo_of_forward (by decide) (by decide) hHome
    rw [hDot]
    exact ⟨fs, createDirectories_eq_ok_of_leadsTo (by decide) hHere⟩
  · -- it is below the working directory or below the root
    rcases exists_leadsTo_startOf hHome root with
      ⟨start, hLeads, hStartAbsolute, hStartMoves⟩
    have hParentMoves : Path.moves (stagingParent root) <+:
        Path.moves root := by
      rw [hStep]
      exact List.prefix_append _ _
    have hParentForward :=
      Path.forward_of_moves_isPrefix hParentMoves hForward
    have hNames := Path.names_isPrefix_of_moves hParentMoves
    have hBelow : Path.Below start (Path.names (stagingParent root))
        (stagingParent root) :=
      ⟨hAbsolute.trans hStartAbsolute.symm, by
        rw [hStartMoves, List.nil_append,
          Path.moves_eq_map_enter hParentForward]⟩
    rw [destination_of_forward hForward] at hOpen
    exact createDirectories_succeeds hLeads (hLinks.below _) hBelow
      hTrimmed
      (Or.inr (checkPath_of_sublist (stagingParent_ne_empty root)
        hStart.sublist hFits.check))
      (fun n hn => hFits.names n (hNames.subset hn))
      (hOpen.of_isPrefix ((List.prefix_append_right_inj _).mpr hNames))

/- Into an empty staging directory files can be written. -/
theorem HasStaging.exists_isStaged_of_fits
    {set : ArtifactSet}
    {root name : String}
    {fs grown : FileSystem}
    {base : Location}
    (h : HasStaging set root fs grown base name)
    (hPaths : ∀ path ∈ set.paths, Path.IsOrdinary path)
    (hFits : ∀ path ∈ set.paths, Path.FitsLimits
      (Path.join (Path.join (stagingParent root) name) path))
    (hApart : NoneAbove set.paths) :
    ∃ staged, IsStaged set root fs grown base name staged := by
  have hNames : ∀ path ∈ set.paths, ∀ n ∈ Path.names path,
      FitsName n := fun path hPath =>
    ((fitsName_join_iff h.staging_ne_empty
      (hPaths path hPath).isAbsolute).mp (hFits path hPath).names).2
  exact h.exists_isStaged_of_isStageable
    ⟨fun path hPath => (hPaths path hPath).endsInName, hNames,
      fun path hPath => (hFits path hPath).check, hApart⟩

/- Where the staging directory of a set is made. -/
def ArtifactSet.stagingPlace
    (set : ArtifactSet)
    (root : String)
    (fs : FileSystem) : String :=
  stagingPath
    (Writing.final (createDirectories (stagingParent root)) fs)
    (stagingParent root) (set.mentioned root)

namespace ArtifactSet

variable {set : ArtifactSet} {root : String} {fs : FileSystem}

theorem stagingPlace_ne_empty
    (set : ArtifactSet)
    (root : String)
    (fs : FileSystem) :
    set.stagingPlace root fs ≠ "" := by
  unfold stagingPlace stagingPath
  apply Path.join_ne_empty (stagingParent_ne_empty root)
  exact (isName_freshStagingName _).isAbsolute

/- The limits that hold for files below a base hold for the base. -/
theorem fitsLimits_of_paths
    {base : String}
    (hBase : base ≠ "")
    (hFiles : set.files ≠ [])
    (hPaths : ∀ path ∈ set.paths, Path.IsOrdinary path)
    (hFits : ∀ path ∈ set.paths,
      Path.FitsLimits (Path.join base path)) :
    Path.FitsLimits base := by
  rcases List.exists_mem_of_ne_nil _ hFiles with ⟨file, hFile⟩
  have hPath : file.1 ∈ set.paths := List.mem_map_of_mem hFile
  exact (hFits _ hPath).of_join hBase (hPaths _ hPath).isAbsolute

/-
  For a set that has been checked a staging directory is made
  once the directories above have been created, ...
-/
theorem exists_hasStaging
    {grown : FileSystem}
    (hChecks : checkPaths fs root set.paths = .ok ())
    (hCreate : createDirectories (stagingParent root) fs =
      .ok () grown)
    (hPlaceFits : Path.FitsLimits (set.stagingPlace root fs)) :
    ∃ base name, HasStaging set root fs grown base name ∧
      set.stagingPlace root fs =
        Path.join (stagingParent root) name := by
  rcases createDirectories_leadsTo (stagingParent_ne_empty root)
      hCreate with
    ⟨hParentCheck, base, hLeads⟩
  have hPlace : set.stagingPlace root fs =
      stagingPath grown (stagingParent root) (set.mentioned root) := by
    rw [stagingPlace, Writing.final_of_ok hCreate]
  rw [hPlace] at hPlaceFits ⊢
  have hName := isName_freshStagingName
    (takenNames grown (stagingParent root) ++ set.mentioned root)
  have hNameFits : FitsName (freshStagingName
      (takenNames grown (stagingParent root) ++
        set.mentioned root)) := by
    apply ((fitsName_join_iff (stagingParent_ne_empty root)
      hName.isAbsolute).mp hPlaceFits.names).2
    rw [hName.names, List.mem_singleton]
  exact ⟨base, _, hasStaging_of_leadsTo hChecks hCreate
    hParentCheck hLeads rfl hPlaceFits.check hNameFits, rfl⟩

/- ... and its files can be staged then. -/
theorem exists_isStaged_of_created
    {grown : FileSystem}
    (hFiles : set.files ≠ [])
    (hPaths : ∀ path ∈ set.paths, Path.IsOrdinary path)
    (hFits : ∀ path ∈ set.paths,
      Path.FitsLimits (Path.join (set.stagingPlace root fs) path))
    (hApart : NoneAbove set.paths)
    (hChecks : checkPaths fs root set.paths = .ok ())
    (hCreate : createDirectories (stagingParent root) fs =
      .ok () grown) :
    ∃ base name staged, IsStaged set root fs grown base name staged := by
  rcases exists_hasStaging hChecks hCreate
      (fitsLimits_of_paths (stagingPlace_ne_empty set root fs) hFiles
        hPaths hFits) with
    ⟨base, name, hStaging, hPlace⟩
  rw [hPlace] at hFits
  rcases hStaging.exists_isStaged_of_fits hPaths hFits hApart with
    ⟨staged, hStaged⟩
  exact ⟨base, name, staged, hStaged⟩

/- A set whose paths have been checked can be staged. -/
theorem exists_isStaged
    (hHome : fs.entryAt? fs.home = some .directory)
    (hLinks : NoLinks fs)
    (hRoot : Path.IsOrdinaryRoot root)
    (hRootFits : Path.FitsLimits root)
    (hOpen : fs.IsOpen (destination fs.home root))
    (hFiles : set.files ≠ [])
    (hPaths : ∀ path ∈ set.paths, Path.IsOrdinary path)
    (hFits : ∀ path ∈ set.paths,
      Path.FitsLimits (Path.join (set.stagingPlace root fs) path))
    (hApart : NoneAbove set.paths)
    (hChecks : checkPaths fs root set.paths = .ok ()) :
    ∃ grown base name staged,
      IsStaged set root fs grown base name staged := by
  rcases createStagingParent_succeeds hHome hLinks hRoot hRootFits
      hOpen with
    ⟨grown, hCreate⟩
  exact ⟨grown, exists_isStaged_of_created hFiles hPaths hFits hApart
    hChecks hCreate⟩

/- Below an output directory that is missing nothing is checked. -/
theorem checkDestination_of_none
    {path : String}
    (hLinks : NoLinks fs)
    (hRoot : root ≠ "")
    (hNone : fs.entryAt? (destination fs.home root) = none)
    (hInside : Path.StaysInside path) :
    checkDestination fs root path = .ok () := by
  rw [checkDestination_of_not_leadsTo _ hRoot hInside]
  · by_contra hExists
    rcases exists?_iff.mp (by simpa using hExists) with
      ⟨loc, hResolve, hSome⟩
    have hLoc := location_of_resolve hLinks hResolve
    exact hSome (by rw [← hNone, ← hLoc]; rfl)
  · intro loc hLeads
    have hDirectory := hLeads.directory
    rw [hLeads.eq_destination hLinks, hNone] at hDirectory
    simp at hDirectory

/- Paths with nothing in their way pass the checks. -/
theorem checkPaths_of_isFree
    (hLinks : NoLinks fs)
    (hRoot : Path.IsOrdinaryRoot root)
    (hRootFits : Path.FitsLimits root)
    (hOpen : fs.IsOpen (destination fs.home root))
    (hInside : ∀ path ∈ set.paths, Path.StaysInside path)
    (hFits : ∀ path ∈ set.paths,
      Path.FitsLimits (Path.join root path))
    (hFree : ∀ path ∈ set.paths,
      IsFree fs (destination fs.home root) (Path.names path)) :
    checkPaths fs root set.paths = .ok () := by
  rw [checkPaths_eq_ok_iff]
  intro path hPath
  refine ⟨hInside path hPath, ?_⟩
  rcases hOpen _ (List.prefix_refl _) with hNone | hDirectory
  · exact checkDestination_of_none hLinks hRoot.ne_empty hNone
      (hInside path hPath)
  · have hLeads := leadsTo_of_forward hRoot.forward hRootFits.names
      hDirectory
    have hNames := (fitsName_join_iff hRoot.ne_empty
      (hInside path hPath).relative).mp (hFits path hPath).names
    exact (checkDestination_eq_ok_iff hLeads (hLinks.below _)
      hRoot.ne_empty (hInside path hPath) hNames.2
      (hFits path hPath).check).mpr (hFree path hPath)

/- Files that have been staged are published. -/
theorem publish_succeeds
    {grown staged : FileSystem}
    {base : Location}
    {name : String}
    (hLinks : NoLinks fs)
    (hRoot : Path.IsOrdinaryRoot root)
    (hFiles : set.files ≠ [])
    (hPaths : ∀ path ∈ set.paths, Path.IsOrdinary path)
    (hFits : ∀ path ∈ set.paths,
      Path.FitsLimits (Path.join root path))
    (hStaged : IsStaged set root fs grown base name staged) :
    ∃ published,
      set.publish root (Path.join (stagingParent root) name)
        (grown.withStaging base name) = .ok () published := by
  cases hExists : staged.exists? root with
  | true =>
      exact hStaged.publish_over_succeeds hLinks hRoot.forward hFiles
        (distinctPlaces_of_isOrdinary hPaths) hFits hExists
  | false =>
      exact hStaged.publish_new_succeeds hLinks hRoot
        (fitsLimits_of_paths hRoot.ne_empty hFiles hPaths hFits) hExists

/- No file that has been written stands above another one. -/
theorem noneAbove_of_writeAll
    {fs' : FileSystem}
    {written : List String}
    (hLinks : NoLinks fs)
    (hForward : Path.Forward root)
    (hFiles : set.files ≠ [])
    (hDistinct : DistinctPlaces set.files)
    (h : set.writeAll root fs = .ok written fs') :
    NoneAbove set.paths := by
  intro path hPath other hOther hPrefix
  rcases List.mem_map.mp hPath with ⟨file, hFile, rfl⟩
  rcases List.mem_map.mp hOther with ⟨under, hUnder, rfl⟩
  by_contra hNe
  have hPlaced :=
    entryAt?_writeAll_file hLinks hForward hFiles hDistinct h hFile
  rcases directory_above_writeAll hLinks hForward hFiles hDistinct h
      hUnder ((List.prefix_append_right_inj _).mpr hPrefix)
      (by simpa using hNe) with
    ⟨hDirectory, -⟩
  rw [hPlaced] at hDirectory
  simp at hDirectory

/- Nothing but directories was above an output directory. -/
theorem isOpen_of_writeAll
    {fs' : FileSystem}
    {written : List String}
    (hLinks : NoLinks fs)
    (hForward : Path.Forward root)
    (hFiles : set.files ≠ [])
    (hDistinct : DistinctPlaces set.files)
    (hNames : ∀ path ∈ set.paths, Path.names path ≠ [])
    (h : set.writeAll root fs = .ok written fs') :
    fs.IsOpen (destination fs.home root) := by
  intro loc hLoc
  rcases List.exists_mem_of_ne_nil _ hFiles with ⟨file, hFile⟩
  apply (directory_above_writeAll hLinks hForward hFiles hDistinct h
    hFile (hLoc.trans (List.prefix_append _ _)) ?_).2
  rintro rfl
  have hLength := hLoc.length_le
  rw [List.length_append] at hLength
  exact hNames _ (List.mem_map_of_mem hFile)
    (List.length_eq_zero_iff.mp (by omega))

/- Where a set has been written, nothing was in its way. -/
theorem isFree_of_writeAll
    {fs' : FileSystem}
    {written : List String}
    (hLinks : NoLinks fs)
    (hRoot : Path.IsOrdinaryRoot root)
    (hPaths : ∀ path ∈ set.paths, Path.IsOrdinary path)
    (hFits : ∀ path ∈ set.paths,
      Path.FitsLimits (Path.join root path))
    (hFiles : set.files ≠ [])
    (h : set.writeAll root fs = .ok written fs')
    {path : String}
    (hPath : path ∈ set.paths) :
    IsFree fs (destination fs.home root) (Path.names path) := by
  have hRootFits :=
    fitsLimits_of_paths hRoot.ne_empty hFiles hPaths hFits
  have hDistinct := distinctPlaces_of_isOrdinary hPaths
  constructor
  · rcases List.mem_map.mp hPath with ⟨file, hFile, rfl⟩
    intro init hInit hNe
    exact (directory_above_writeAll hLinks hRoot.forward hFiles hDistinct
      h hFile ((List.prefix_append_right_inj _).mpr hInit)
      (by simpa using hNe)).2
  · -- a directory in place of a file would have been seen
    intro hDirectory
    rcases exists_hasStaging_of_ok hFiles h with
      ⟨grown, base, name, -, hStaging, -⟩
    have hInside := hStaging.inside _ hPath
    have hLeads := @leadsTo_of_forward fs _ hRoot.forward
      hRootFits.names (directory_of_append _
        (hPaths _ hPath).names_ne_nil (by simp [hDirectory]))
    have hNames := (fitsName_join_iff hRoot.ne_empty
      hInside.relative).mp (hFits _ hPath).names
    have hChecks := (checkPaths_eq_ok_iff.mp hStaging.checks _ hPath).2
    exact ((checkDestination_eq_ok_iff hLeads (hLinks.below _)
      hRoot.ne_empty hInside hNames.2 (hFits _ hPath).check).mp
        hChecks).place hDirectory

/- Where nothing is in the way of a set, it is written. -/
theorem writeAll_succeeds
    (hHome : fs.entryAt? fs.home = some .directory)
    (hLinks : NoLinks fs)
    (hRoot : Path.IsOrdinaryRoot root)
    (hFiles : set.files ≠ [])
    (hPaths : ∀ path ∈ set.paths, Path.IsOrdinary path)
    (hFits : ∀ path ∈ set.paths,
      Path.FitsLimits (Path.join root path) ∧
        Path.FitsLimits
          (Path.join (set.stagingPlace root fs) path))
    (hOpen : fs.IsOpen (destination fs.home root))
    (hApart : NoneAbove set.paths)
    (hFree : ∀ path ∈ set.paths,
      IsFree fs (destination fs.home root) (Path.names path)) :
    ∃ written fs', set.writeAll root fs = .ok written fs' := by
  have hRootFits := fitsLimits_of_paths hRoot.ne_empty hFiles hPaths
    fun path hPath => (hFits path hPath).1
  have hChecks := checkPaths_of_isFree hLinks hRoot hRootFits hOpen
    (fun path hPath => (hPaths path hPath).staysInside)
    (fun path hPath => (hFits path hPath).1) hFree
  rcases exists_isStaged hHome hLinks hRoot hRootFits hOpen hFiles
      hPaths (fun path hPath => (hFits path hPath).2) hApart hChecks with
    ⟨grown, base, name, staged, hStaged⟩
  rcases publish_succeeds hLinks hRoot hFiles hPaths
      (fun path hPath => (hFits path hPath).1) hStaged with
    ⟨published, hPublish⟩
  exact ⟨_, _, hStaged.writeAll_eq_ok hFiles hPublish⟩

/-
  Without links, a set with ordinary paths is written below an
  ordinary output directory exactly if neither that directory
  nor one above it is something else, no path of the set goes on
  from another one, and below the output directory there are
  directories or nothing above the places of the files, and no
  directories at them.  What has been staged can be moved then.
-/
theorem writeAll_succeeds_iff
    (set : ArtifactSet)
    (root : String)
    (fs : FileSystem)
    (hHome : fs.entryAt? fs.home = some .directory)
    (hLinks : NoLinks fs)
    (hRoot : Path.IsOrdinaryRoot root)
    (hFiles : set.files ≠ [])
    (hPaths : ∀ path ∈ set.paths, Path.IsOrdinary path)
    (hFits : ∀ path ∈ set.paths,
      Path.FitsLimits (Path.join root path) ∧
        Path.FitsLimits
          (Path.join (set.stagingPlace root fs) path)) :
    ((∃ written fs', set.writeAll root fs = .ok written fs') ↔
      fs.IsOpen (destination fs.home root) ∧ NoneAbove set.paths ∧
        ∀ path ∈ set.paths,
          IsFree fs (destination fs.home root) (Path.names path)) ∧
    ∀ grown staging started staged,
      checkPaths fs root set.paths = .ok () →
      createDirectories (stagingParent root) fs = .ok () grown →
      makeStaging (stagingParent root) (set.mentioned root) grown =
        .ok staging started →
      stageFiles staging set.files started = .ok () staged →
        ∃ published,
          set.publish root staging started = .ok () published := by
  refine ⟨⟨?_, ?_⟩, ?_⟩
  · rintro ⟨written, fs', hWrite⟩
    have hDistinct := distinctPlaces_of_isOrdinary hPaths
    exact ⟨isOpen_of_writeAll hLinks hRoot.forward hFiles hDistinct
        (fun path hPath => (hPaths path hPath).names_ne_nil) hWrite,
      noneAbove_of_writeAll hLinks hRoot.forward hFiles hDistinct
        hWrite,
      fun path hPath => isFree_of_writeAll hLinks hRoot hPaths
        (fun other hOther => (hFits other hOther).1) hFiles hWrite
        hPath⟩
  · rintro ⟨hOpen, hApart, hFree⟩
    exact writeAll_succeeds hHome hLinks hRoot hFiles hPaths hFits hOpen
      hApart hFree
  · intro grown staging started staged hChecks hParent hMake hStage
    rcases makeStaging_eq_ok hMake with ⟨base, name, hIs, rfl, -, rfl⟩
    exact publish_succeeds hLinks hRoot hFiles hPaths
      (fun path hPath => (hFits path hPath).1)
      ⟨⟨hChecks, hParent, hMake, hIs⟩, hStage⟩

/- Files are written beside others, but none over a directory. -/
theorem writeAll_succeeds_furnished :
    (∃ written fs',
      (ofList [("a/b", "x"), ("a/c/d", "y"), ("e", "z")]).writeAll "out"
        furnished = .ok written fs') ∧
    ¬ ∃ written fs',
      (ofList [("a/b", "x"), ("full", "y")]).writeAll "out" furnished =
        .ok written fs' := by
  have hRoot : Path.IsOrdinaryRoot "out" :=
    ⟨"out", by decide, Or.inl rfl⟩
  constructor
  · apply (writeAll_succeeds_iff _ "out" furnished rfl
      noLinks_furnished hRoot (by decide) (by decide)
      (by decide +kernel)).1.mpr
    decide +kernel
  · intro hWritten
    have hFree := ((writeAll_succeeds_iff _ "out" furnished rfl
      noLinks_furnished hRoot (by decide) (by decide)
      (by decide +kernel)).1.mp hWritten).2.2
    exact absurd hFree (by decide +kernel)

end ArtifactSet

end Bindery

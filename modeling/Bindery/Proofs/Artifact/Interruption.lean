import Bindery.Proofs.Artifact.Feasibility

/-
  This file says what is left when a set of files cannot be
  written.  Up to the first file that is moved everything stays
  as it was; after that, files that have been moved stay moved.

  Key definitions include:
    * `SameFiles`
    * `AreMovable`
    * `IsBlocked`
    * `ArtifactSet.Interrupted`
    * `ArtifactSet.StopsHalfway`

  Key theorems include:
    * `areMovable_or_blocked`
    * `HasStaging.clear_grows`
    * `IsStaged.moveFiles_stops`
    * `ArtifactSet.grows_or_interrupted`
    * `ArtifactSet.sameFiles_iff`
    * `ArtifactSet.not_stopsHalfway`
    * `ArtifactSet.writeAll_error`
-/

namespace Bindery

open FileSystem
open Bindery.Path (Step EndsIn Component)

------------------------------------------------------------
-- The Same Files
------------------------------------------------------------

/- Two file systems have the same files in the same places. -/
def SameFiles (fs fs' : FileSystem) : Prop :=
  ∀ loc content, fs'.entryAt? loc = some (.file content) ↔
    fs.entryAt? loc = some (.file content)

theorem Grows.sameFiles
    {allowed : Location → Prop}
    {fs fs' : FileSystem}
    (h : Grows allowed fs fs') :
    SameFiles fs fs' :=
  h.entryAt?_eq_file_iff

------------------------------------------------------------
-- The First File That Cannot Be Moved
------------------------------------------------------------

/- Files that can be moved one after the other. -/
structure AreMovable
    (fs : FileSystem)
    (root : String)
    (target : Location)
    (files : List (String × String)) : Prop where
  distinct : DistinctPlaces files
  writable : ∀ file ∈ files, IsWritable fs root target file.1

/- A path that cannot be moved to after those of other files. -/
def IsBlocked
    (fs : FileSystem)
    (root : String)
    (target : Location)
    (done : List (String × String))
    (path : String) : Prop :=
  (∃ file ∈ done, Path.names file.1 = Path.names path) ∨
    ¬ IsWritable fs root target path

/- Either all files can be moved, or there is a first that cannot. -/
theorem areMovable_or_blocked
    (fs : FileSystem)
    (root : String)
    (target : Location)
    (files : List (String × String)) :
    AreMovable fs root target files ∨
      ∃ done file rest, files = done ++ file :: rest ∧
        AreMovable fs root target done ∧
        IsBlocked fs root target done file.1 := by
  induction files using List.reverseRecOn with
  | nil => exact Or.inl ⟨List.Pairwise.nil, by simp⟩
  | append_singleton files last ih =>
      rcases ih with hMovable | ⟨done, file, rest, rfl, hDone, hFile⟩
      · by_cases hLast : IsBlocked fs root target files last.1
        · exact Or.inr ⟨files, last, [], rfl, hMovable, hLast⟩
        · rcases not_or.mp hLast with ⟨hNew, hWritable⟩
          refine Or.inl ⟨?_, ?_⟩
          · apply List.pairwise_append.mpr
            refine ⟨hMovable.distinct, List.pairwise_singleton _ _, ?_⟩
            intro file hFile other hOther hSame
            rw [List.mem_singleton.mp hOther] at hSame
            exact hNew ⟨file, hFile, hSame⟩
          · intro file hFile
            rcases List.mem_append.mp hFile with hMem | hMem
            · exact hMovable.writable file hMem
            · rw [List.mem_singleton.mp hMem]
              exact not_not.mp hWritable
      · exact Or.inr ⟨done, file, rest ++ [last], by simp, hDone, hFile⟩

/- A place that is free beside other files was free before them. -/
theorem IsFree.of_overlay
    {fs fs' : FileSystem}
    {base : Location}
    {files : List (String × String)}
    {names : List String}
    (hEntries : ∀ above, above <+: names →
      fs'.entryAt? (base ++ above) =
        Bindery.overlay base files fs.entryAt? (base ++ above))
    (hApart : ∀ file ∈ files, Path.names file.1 ≠ names)
    (h : IsFree fs' base names) :
    IsFree fs base names := by
  constructor
  · intro above hAbove hNe
    have hFree := h.above above hAbove hNe
    rw [hEntries above hAbove, Bindery.overlay] at hFree
    cases hLast : lastAt base files (base ++ above) with
    | some content => simp [hLast] at hFree
    | none =>
        rw [hLast] at hFree
        cases hOld : fs.entryAt? (base ++ above) with
        | none => exact Or.inl rfl
        | some e => simpa [hOld] using hFree
  · intro hDirectory
    apply h.place
    rw [hEntries names (List.prefix_refl _), Bindery.overlay]
    cases hLast : lastAt base files (base ++ names) with
    | some content =>
        rcases exists_of_lastAt hLast with ⟨file, hFile, -, hPlace⟩
        exact absurd (List.append_cancel_left hPlace).symm
          (hApart file hFile)
    | none => simp [hDirectory]

------------------------------------------------------------
-- Moving Some of the Files
------------------------------------------------------------

theorem moveFiles_append
    (staging root : String)
    (first second : List String) :
    moveFiles staging root (first ++ second) =
      (moveFiles staging root first >>= fun _ =>
        moveFiles staging root second) := by
  induction first with
  | nil => rfl
  | cons path rest ih =>
      rw [List.cons_append, moveFiles_cons, moveFiles_cons, ih,
        bind_assoc]

theorem moveFiles_of_error
    {staging root path : String}
    {done : List String}
    {fs middle fs' : FileSystem}
    {e : WriteError}
    (hDone : moveFiles staging root done fs = .ok () middle)
    (hPath : moveFile staging root path middle = .error e fs')
    (rest : List String) :
    moveFiles staging root (done ++ path :: rest) fs =
      .error e fs' := by
  rw [moveFiles_append, moveFiles_cons]
  exact Writing.bind_eq_error_iff.mpr (Or.inr ⟨(), middle, hDone,
    Writing.bind_eq_error_iff.mpr (Or.inl hPath)⟩)

/- When not all files can be moved, one of them was the first. -/
theorem moveFiles_eq_error
    {staging root : String}
    {paths : List String}
    {fs fs' : FileSystem}
    {e : WriteError}
    (h : moveFiles staging root paths fs = .error e fs') :
    ∃ done path rest middle, paths = done ++ path :: rest ∧
      moveFiles staging root done fs = .ok () middle ∧
      moveFile staging root path middle = .error e fs' := by
  induction paths generalizing fs with
  | nil => simp [moveFiles, pure, EStateM.pure] at h
  | cons path rest ih =>
      rw [moveFiles_cons] at h
      rcases Writing.bind_eq_error_iff.mp h with hFirst |
        ⟨⟨⟩, middle, hFirst, hRest⟩
      · exact ⟨[], path, rest, fs, rfl, rfl, hFirst⟩
      · rcases ih hRest with
          ⟨done, other, others, last, rfl, hDone, hOther⟩
        refine ⟨path :: done, other, others, last, rfl, ?_, hOther⟩
        rw [moveFiles_cons]
        exact Writing.bind_eq_ok_iff.mpr ⟨(), middle, hFirst, hDone⟩

------------------------------------------------------------
-- Clearing Away What Was Staged
------------------------------------------------------------

/-
  The files with what is staged for each: the last content that
  the set has for its place.
-/
def ArtifactSet.asStaged
    (set : ArtifactSet)
    (files : List (String × String)) : List (String × String) :=
  files.map fun file =>
    (file.1, (lastAt [] set.files (Path.names file.1)).getD file.2)

theorem ArtifactSet.map_fst_asStaged
    (set : ArtifactSet)
    (files : List (String × String)) :
    (set.asStaged files).map Prod.fst = files.map Prod.fst := by
  simp [asStaged, Function.comp_def]

theorem AreMovable.asStaged
    {fs : FileSystem}
    {root : String}
    {target : Location}
    {files : List (String × String)}
    (h : AreMovable fs root target files)
    (set : ArtifactSet) :
    AreMovable fs root target (set.asStaged files) where
  distinct := List.pairwise_map.mpr h.distinct
  writable moved hMoved := by
    rcases List.mem_map.mp hMoved with ⟨file, hFile, rfl⟩
    exact h.writable file hFile

/- Files that are there already may be laid over without a change. -/
theorem overlay_eq_file_iff
    {fs : FileSystem}
    {base loc : Location}
    {files : List (String × String)}
    {before : Location → Option Entry}
    {content : ByteArray}
    (hKept : ∀ file ∈ files, fs.entryAt? (base ++ Path.names file.1) =
      some (.file file.2.toUTF8))
    (hSame : before loc = some (.file content) ↔
      fs.entryAt? loc = some (.file content)) :
    overlay base files before loc = some (.file content) ↔
      fs.entryAt? loc = some (.file content) := by
  unfold overlay
  cases hLast : lastAt base files loc with
  | some last =>
      rcases exists_of_lastAt hLast with ⟨file, hFile, rfl, rfl⟩
      rw [hKept file hFile]
  | none =>
      dsimp only
      split
      · rename_i hNew
        simp [← hSame, hNew.1]
      · exact hSame

namespace HasStaging

variable {set : ArtifactSet} {root name : String}
variable {fs grown staged last : FileSystem} {base : Location}

/-
  If no file has been moved, at most directories with names
  that were mentioned are new once the staging is cleared away.
-/
theorem clear_grows
    (h : HasStaging set root fs grown base name)
    (hFills : FillsBelow (base ++ [name])
      (grown.withStaging base name) staged)
    (hGrows : Grows (EndsIn (set.mentioned root)) staged last) :
    Grows (EndsIn (set.mentioned root)) fs
      (removeAt (Path.join (stagingParent root) name) last) := by
  have hLeads := (h.leadsTo.mono hFills.keeps).mono hGrows.keeps
  rw [removeAt_of_leadsTo h.isStaging.check hLeads]
  refine ⟨?_, fun loc e hLoc => ?_, fun loc hLoc hNew => ?_⟩
  · exact hGrows.home.trans
      (hFills.keeps.home.trans h.home_withStaging)
  · have hApart : ¬ base ++ [name] <+: loc := by
      intro hPrefix
      rw [h.none_of_isPrefix hPrefix] at hLoc
      simp at hLoc
    rw [entryAt?_remove, if_neg hApart]
    apply hGrows.kept loc e
    rw [h.entryAt?_of_fills hFills hApart]
    exact h.grows.kept loc e hLoc
  · rw [entryAt?_remove] at hNew ⊢
    split at hNew
    · exact absurd rfl hNew
    · rename_i hApart
      rw [if_neg hApart]
      cases hOld : staged.entryAt? loc with
      | none => exact hGrows.new loc hOld hNew
      | some e =>
          have hGrown := h.entryAt?_of_fills hFills hApart
          rcases h.grows.new loc hLoc
              (by rw [← hGrown, hOld]; simp) with
            ⟨hDirectory, hName⟩
          rw [← hGrown] at hDirectory
          exact ⟨hGrows.kept loc _ hDirectory,
            hName.mono (List.subset_append_left _ _)⟩

/- Once the staging is cleared away, the rest is as published. -/
theorem entryAt?_of_publish_error
    {published : FileSystem}
    {e : WriteError}
    (h : HasStaging set root fs grown base name)
    (hLinks : NoLinks fs)
    (hPublish :
      set.publish root (Path.join (stagingParent root) name)
        (grown.withStaging base name) = .error e published)
    (loc : Location) :
    (removeAt (Path.join (stagingParent root) name)
        published).entryAt? loc =
      if base ++ [name] <+: loc then none
      else published.entryAt? loc := by
  have hClear := h.entryAt?_publishAndClear hLinks loc
  rwa [ArtifactSet.final_publishAndClear,
    Writing.final_of_error hPublish] at hClear

end HasStaging

namespace IsStaged

variable {set : ArtifactSet} {root name : String}
variable {fs grown staged : FileSystem} {base : Location}

theorem entryAt?_asStaged
    (h : IsStaged set root fs grown base name staged)
    {files : List (String × String)}
    (hFiles : files ⊆ set.files)
    {moved : String × String}
    (hMoved : moved ∈ set.asStaged files) :
    staged.entryAt? (base ++ [name] ++ Path.names moved.1) =
      some (.file moved.2.toUTF8) := by
  rcases List.mem_map.mp hMoved with ⟨file, hFile, rfl⟩
  rcases h.exists_entryAt? (List.mem_map_of_mem (hFiles hFile)) with
    ⟨content, hLast, hEntry⟩
  simpa [hLast] using hEntry

/- Files of the set that can be moved are moved. -/
theorem moveFiles_of_areMovable
    (h : IsStaged set root fs grown base name staged)
    (hLinks : NoLinks fs)
    (hRootNe : root ≠ "")
    (hRoot : staged.LeadsTo root (destination fs.home root))
    {files : List (String × String)}
    (hFiles : files ⊆ set.files)
    (hMovable : AreMovable staged root (destination fs.home root)
      files) :
    ∃ middle,
      moveFiles (Path.join (stagingParent root) name) root
        (files.map Prod.fst) staged = .ok () middle ∧
      IsMoving middle (Path.join (stagingParent root) name) root
        (base ++ [name]) (destination fs.home root) set.paths ∧
      middle.LeadsTo root (destination fs.home root) ∧
      HasMoved (base ++ [name]) (destination fs.home root)
        (set.asStaged files) staged middle := by
  have hMoving := h.isMoving hLinks hRootNe
  have hMoved := hMovable.asStaged set
  have hPaths : ∀ moved ∈ set.asStaged files, moved.1 ∈ set.paths := by
    intro moved hMem
    rcases List.mem_map.mp hMem with ⟨file, hFile, rfl⟩
    exact List.mem_map.mpr ⟨file, hFiles hFile, rfl⟩
  have hStaged : ∀ moved ∈ set.asStaged files,
      staged.entryAt? (base ++ [name] ++ Path.names moved.1) =
        some (.file moved.2.toUTF8) :=
    fun moved hMem => h.entryAt?_asStaged hFiles hMem
  have hApart : NoneAbove ((set.asStaged files).map Prod.fst) := by
    intro path hPath other hOther
    rcases List.mem_map.mp hPath with ⟨moved, hMem, rfl⟩
    rcases List.mem_map.mp hOther with ⟨under, hUnder, rfl⟩
    exact h.noneAbove _ (hPaths _ hMem) _ (hPaths _ hUnder)
  have hChecks : ∀ moved ∈ set.asStaged files, checkPath
      (Path.join (Path.join (stagingParent root) name) moved.1) =
        .ok () := by
    intro moved hMem
    rcases List.mem_map.mp hMem with ⟨file, hFile, rfl⟩
    exact (h.of_mem (hFiles hFile)).2.2
  rcases moveFiles_succeeds hMoving hRoot hPaths
      hStaged hMoved.distinct hApart hChecks hMoved.writable with
    ⟨middle, hMove⟩
  rcases moveFiles_eq_ok hMoving
      hRoot hPaths hStaged hMoved.distinct hMove with
    ⟨hMiddle, hMiddleRoot, -, hHasMoved⟩
  rw [set.map_fst_asStaged] at hMove
  exact ⟨middle, hMove, hMiddle, hMiddleRoot, hHasMoved⟩

/-
  Files are moved up to the first that cannot be.  Those that
  have been moved lie over the files that were there.
-/
theorem moveFiles_stops
    (h : IsStaged set root fs grown base name staged)
    (hLinks : NoLinks fs)
    (hRootNe : root ≠ "")
    (hRoot : staged.LeadsTo root (destination fs.home root))
    {done rest : List (String × String)}
    {file : String × String}
    (hSplit : set.files = done ++ file :: rest)
    (hDone : AreMovable staged root (destination fs.home root) done)
    (hBlocked : IsBlocked staged root (destination fs.home root) done
      file.1) :
    ∃ e last,
      moveFiles (Path.join (stagingParent root) name) root set.paths
        staged = .error e last ∧
      ∀ loc, ¬ base ++ [name] <+: loc → ∀ content,
        last.entryAt? loc = some (.file content) ↔
          overlay (destination fs.home root) (set.asStaged done)
            staged.entryAt? loc = some (.file content) := by
  have hFile : file ∈ set.files := by simp [hSplit]
  have hPath : file.1 ∈ set.paths := List.mem_map_of_mem hFile
  rcases
      h.moveFiles_of_areMovable hLinks hRootNe hRoot
        (by rw [hSplit]; exact List.subset_append_left _ _) hDone with
    ⟨middle, hMove, hMiddle, hMiddleRoot, hHasMoved⟩
  have hStops : ∀ fs',
      moveFile (Path.join (stagingParent root) name) root file.1
        middle ≠ .ok () fs' := by
    intro fs' hNext
    rcases hMiddle.isWritable_of_moveFile
        hMiddleRoot hPath (h.of_mem hFile).1 hNext with
      ⟨hThere, hWritable⟩
    by_cases hSame : ∃ other ∈ done,
        Path.names other.1 = Path.names file.1
    · rcases hSame with ⟨other, hOther, hNames⟩
      have hGone := hHasMoved.gone _
        (List.mem_map.mpr ⟨other, hOther, rfl⟩)
      apply hThere
      rw [← hNames]
      exact hGone
    · refine hBlocked.elim hSame fun hNot => hNot
        ⟨hWritable.ends, hWritable.fits, hWritable.check,
          hWritable.free.of_overlay (fun above hAbove =>
            hHasMoved.placed _ ?_) ?_⟩
      · intro hPrefix
        exact h.not_prefix_place hPath (hPrefix.trans
          ((List.prefix_append_right_inj _).mpr hAbove))
      · intro moved hMoved hNames
        rcases List.mem_map.mp hMoved with ⟨other, hOther, rfl⟩
        exact hSame ⟨other, hOther, hNames⟩
  have hAll : set.paths =
      done.map Prod.fst ++ file.1 :: rest.map Prod.fst := by
    simp [ArtifactSet.paths, Keyed.keys, hSplit]
  cases hNext : moveFile (Path.join (stagingParent root) name) root
      file.1 middle with
  | ok u fs' => exact absurd hNext (hStops fs')
  | error e last =>
      refine ⟨e, last, ?_, fun loc hLoc content => ?_⟩
      · rw [hAll]
        exact moveFiles_of_error hMove hNext _
      · rw [← hHasMoved.placed loc hLoc, final_of_moveFile_error hNext]
        exact (createParent_grows _ _).sameFiles loc content

/- What files there are when writing a set has stopped so. -/
theorem writeAll_stops
    {fs' : FileSystem}
    {e : WriteError}
    (h : IsStaged set root fs grown base name staged)
    (hLinks : NoLinks fs)
    (hExists : staged.exists? root = true)
    (hRoot : staged.LeadsTo root (destination fs.home root))
    {done rest : List (String × String)}
    {file : String × String}
    (hSplit : set.files = done ++ file :: rest)
    (hDone : AreMovable staged root (destination fs.home root) done)
    (hBlocked : IsBlocked staged root (destination fs.home root) done
      file.1)
    (hRun : set.writeAll root fs = .error e fs')
    (loc : Location)
    (content : ByteArray) :
    fs'.entryAt? loc = some (.file content) ↔
      ¬ base ++ [name] <+: loc ∧
        overlay (destination fs.home root) (set.asStaged done)
          staged.entryAt? loc = some (.file content) := by
  rcases h.moveFiles_stops hLinks (ne_empty_of_exists? hExists) hRoot
      hSplit hDone hBlocked with
    ⟨cause, last, hMove, hOverlay⟩
  rw [← h.publish_eq_moveFiles hExists] at hMove
  rw [h.writeAll_eq (by simp [hSplit]),
    ArtifactSet.publishAndClear_eq_error_iff] at hRun
  rcases hRun with ⟨published, hPublish, rfl⟩
  rw [hMove] at hPublish
  rcases EStateM.Result.error.inj hPublish with ⟨-, rfl⟩
  rw [h.entryAt?_of_publish_error hLinks hMove]
  by_cases hUnder : base ++ [name] <+: loc
  · simp [hUnder]
  · rw [if_neg hUnder, and_iff_right hUnder]
    exact hOverlay loc hUnder content

/-
  Below an output directory whose path does not go up, a file
  that has been staged is blocked only by another one in its
  place, or by the length of its path.
-/
theorem isBlocked_iff
    (h : IsStaged set root fs grown base name staged)
    (hLinks : NoLinks fs)
    (hForward : Path.Forward root)
    (hRootNe : root ≠ "")
    (hRoot : staged.LeadsTo root (destination fs.home root))
    (done : List (String × String))
    {file : String × String}
    (hFile : file ∈ set.files) :
    IsBlocked staged root (destination fs.home root) done file.1 ↔
      (∃ other ∈ done, Path.names other.1 = Path.names file.1) ∨
        checkPath (Path.join root file.1) ≠ .ok () := by
  have hPath : file.1 ∈ set.paths := List.mem_map_of_mem hFile
  have hInside := h.inside file.1 hPath
  rcases h.of_mem hFile with ⟨hEnds, hFits, -⟩
  unfold IsBlocked
  refine or_congr_right (not_congr ⟨(·.check), fun hCheck => ?_⟩)
  rcases hEnds.exists_names with ⟨init, last, hNames⟩
  exact ⟨hEnds, hFits, hCheck, h.isFree_destination hLinks hForward
    hRootNe hRoot hPath ⟨hCheck, (fitsName_join_iff hRootNe
      hInside.relative).mpr ⟨hRoot.fitsName, hFits⟩⟩ (by simp [hNames])⟩

end IsStaged

------------------------------------------------------------
-- A Set That Is Not Written
------------------------------------------------------------

namespace ArtifactSet

/- There is nothing where the staging directory was made. -/
def StagingIsGone
    (set : ArtifactSet)
    (root : String)
    (fs fs' : FileSystem) : Prop :=
  ∀ grown base name, HasStaging set root fs grown base name →
    fs'.entryAt? (base ++ [name]) = none

/-
  Writing a set fails when some of its files have been moved;
  the others are removed.
-/
def Interrupted
    (set : ArtifactSet)
    (root : String)
    (fs fs' : FileSystem)
    (e : WriteError) : Prop :=
  ∃ grown base name staged done path rest middle last,
    HasStaging set root fs grown base name ∧
    stageFiles (Path.join (stagingParent root) name) set.files
      (grown.withStaging base name) = .ok () staged ∧
    staged.exists? root = true ∧
    set.paths = done ++ path :: rest ∧ done ≠ [] ∧
    moveFiles (Path.join (stagingParent root) name) root done staged =
      .ok () middle ∧
    moveFile (Path.join (stagingParent root) name) root path middle =
      .error e last ∧
    fs' = removeAt (Path.join (stagingParent root) name) last

/-
  The files of a set are staged and the output directory is
  there; some files can be moved to it, and one of them changes
  what was there; but then comes a file that cannot be moved.
-/
def StopsHalfway
    (set : ArtifactSet)
    (root : String)
    (fs : FileSystem) : Prop :=
  ∃ grown base name staged done file rest,
    HasStaging set root fs grown base name ∧
    stageFiles (Path.join (stagingParent root) name) set.files
      (grown.withStaging base name) = .ok () staged ∧
    staged.isDirectory root = true ∧
    set.files = done ++ file :: rest ∧
    AreMovable staged root (destination fs.home root) done ∧
    IsBlocked staged root (destination fs.home root) done file.1 ∧
    ∃ moved ∈ set.asStaged done,
      fs.entryAt? (destination fs.home root ++ Path.names moved.1) ≠
        some (.file moved.2.toUTF8)

variable {set : ArtifactSet} {root : String} {fs fs' : FileSystem}
variable {e : WriteError}

/- The name of the staging directory is none that is mentioned. -/
theorem stagingIsGone_of_grows
    (h : Grows (EndsIn (set.mentioned root)) fs fs') :
    set.StagingIsGone root fs fs' := by
  intro grown base name hStaging
  by_contra hNew
  rcases h.new _
      (hStaging.none_of_isPrefix (List.prefix_refl _)) hNew with
    ⟨-, other, hOther, hEnds⟩
  have hEq : name = other := by simpa using hEnds
  subst hEq
  exact hStaging.isStaging.fresh hOther

/- Before a file has been moved, a failure leaves what was there. -/
theorem grows_or_interrupted
    (h : set.writeAll root fs = .error e fs') :
    Grows (EndsIn (set.mentioned root)) fs fs' ∨
      set.Interrupted root fs fs' e := by
  rcases set.writeAll_cases root fs with ⟨cause, -, hRun⟩ |
    ⟨-, hRun⟩ | ⟨-, cause, hRun⟩ | ⟨grown, base, name, hStaging, hRun⟩
  · rw [hRun] at h
    rcases EStateM.Result.error.inj h with ⟨-, rfl⟩
    exact Or.inl (Grows.refl _ _)
  · rw [hRun] at h
    simp at h
  · rw [hRun] at h
    rcases EStateM.Result.error.inj h with ⟨-, rfl⟩
    left
    apply (createDirectories_grows (stagingParent root) fs).mono
    exact fun loc hEnds => hEnds.mono
      (List.Subset.trans (names_stagingParent_subset root)
        (List.subset_append_left _ _))
  · rw [hRun, publishAndClear_eq_error_iff] at h
    rcases h with ⟨published, hPublish, rfl⟩
    rcases hStaging.publish_cases with ⟨cause, staged, hFills, hRun⟩ |
      ⟨staged, hStaged, hRun⟩
    · rw [hRun] at hPublish
      rcases EStateM.Result.error.inj hPublish with ⟨-, rfl⟩
      exact Or.inl (hStaging.clear_grows hFills (Grows.refl _ _))
    rw [hRun] at hPublish
    by_cases hExists : staged.exists? root = true
    · rw [if_pos hExists] at hPublish
      rcases moveFiles_eq_error hPublish with
        ⟨done, path, rest, middle, hSplit, hDone, hPath⟩
      by_cases hNil : done = []
      · -- the first file has not been moved
        subst hNil
        have hEq : staged = middle := by
          simpa [moveFiles, pure, EStateM.pure] using hDone
        subst hEq
        left
        apply hStaging.clear_grows hStaged.fills
        rw [final_of_moveFile_error hPath]
        apply (createParent_grows _ _).mono
        have hFirst : path ∈ set.paths := by simp [hSplit]
        exact fun loc hEnds => hEnds.mono (names_join_subset
          (ne_empty_of_exists? hExists) (hStaging.inside path hFirst)
          hFirst)
      · exact Or.inr ⟨grown, base, name, staged, done, path, rest,
          middle, published, hStaging, hStaged.stage, hExists, hSplit,
          hNil, hDone, hPath, rfl⟩
    · rw [if_neg hExists] at hPublish
      rcases Writing.perform_eq_error_iff.mp hPublish with
        ⟨cause, -, -, rfl⟩
      exact Or.inl (hStaging.clear_grows hStaged.fills
        (Grows.refl _ _))

/- Where writing stops halfway, some file has been changed. -/
theorem not_sameFiles_of_stopsHalfway
    (hLinks : NoLinks fs)
    (hStops : set.StopsHalfway root fs)
    (h : set.writeAll root fs = .error e fs') :
    ¬ SameFiles fs fs' := by
  rcases hStops with ⟨grown, base, name, staged, done, file, rest,
    hStaging, hStage, hDirectory, hSplit, hDone, hBlocked, moved, hMoved,
    hOld⟩
  have hStaged : IsStaged set root fs grown base name staged :=
    ⟨hStaging, hStage⟩
  rcases isDirectory_iff.mp hDirectory with ⟨-, loc, hRoot⟩
  have hEq := hStaged.eq_destination hLinks hRoot
  subst hEq
  rcases List.mem_map.mp hMoved with ⟨first, hFirst, rfl⟩
  have hMem : first ∈ set.files := by
    rw [hSplit]
    exact List.mem_append_left _ hFirst
  have hApart := hStaging.not_prefix_place (List.mem_map_of_mem hMem)
  intro hSame
  apply hOld
  apply (hSame _ _).mp
  apply (hStaged.writeAll_stops hLinks (exists?_of_isDirectory hDirectory)
    hRoot hSplit hDone hBlocked h _ _).mpr
  refine ⟨hApart, ?_⟩
  rw [overlay, lastAt_of_distinct (hDone.asStaged set).distinct hMoved]

/-
  Below an output directory whose path does not go up, writing
  does not stop halfway if all files have different places and
  paths that can be used.
-/
theorem not_stopsHalfway
    (hLinks : NoLinks fs)
    (hForward : Path.Forward root)
    (hDistinct : DistinctPlaces set.files)
    (hChecks : ∀ path ∈ set.paths,
      checkPath (Path.join root path) = .ok ()) :
    ¬ set.StopsHalfway root fs := by
  rintro ⟨grown, base, name, staged, done, file, rest, hStaging,
    hStage, hDirectory, hSplit, -, hBlocked, -⟩
  have hStaged : IsStaged set root fs grown base name staged :=
    ⟨hStaging, hStage⟩
  rcases isDirectory_iff.mp hDirectory with ⟨hCheck, loc, hRoot⟩
  obtain rfl := hStaged.eq_destination hLinks hRoot
  have hFile : file ∈ set.files := by simp [hSplit]
  rcases (hStaged.isBlocked_iff hLinks hForward
      (ne_empty_of_checkPath hCheck) hRoot done hFile).mp hBlocked with
    ⟨other, hOther, hNames⟩ | hLong
  · rw [hSplit] at hDistinct
    exact (List.pairwise_append.mp hDistinct).2.2 other hOther file
      List.mem_cons_self hNames
  · exact hLong (hChecks file.1 (List.mem_map_of_mem hFile))

/- If some of the files have been moved, others are in their way. -/
theorem exists_blocked_of_interrupted
    (hLinks : NoLinks fs)
    {staged grown middle last : FileSystem}
    {base : Location}
    {name path : String}
    {done rest : List String}
    (hStaged : IsStaged set root fs grown base name staged)
    (hExists : staged.exists? root = true)
    (hSplit : set.paths = done ++ path :: rest)
    (hNil : done ≠ [])
    (hDone : moveFiles (Path.join (stagingParent root) name) root done
      staged = .ok () middle)
    (hPath : moveFile (Path.join (stagingParent root) name) root path
      middle = .error e last) :
    checkPath root = .ok () ∧
    staged.LeadsTo root (destination fs.home root) ∧
    ∃ first file others, set.files = first ++ file :: others ∧
      AreMovable staged root (destination fs.home root) first ∧
      IsBlocked staged root (destination fs.home root) first
        file.1 := by
  rcases hStaged.leadsTo_of_moveFiles hLinks hExists hNil
      (by simp [hSplit]) hDone with
    ⟨hCheck, hRoot⟩
  refine ⟨hCheck, hRoot, ?_⟩
  rcases areMovable_or_blocked staged root (destination fs.home root)
      set.files with
    hMovable | hBlocked
  · rcases hStaged.moveFiles_of_areMovable hLinks
        (ne_empty_of_exists? hExists) hRoot (List.Subset.refl _)
        hMovable with
      ⟨after, hAll, -⟩
    have hRun : moveFiles (Path.join (stagingParent root) name) root
        set.paths staged = .error e last := by
      rw [hSplit]
      exact moveFiles_of_error hDone hPath rest
    exact absurd (hRun.symm.trans hAll) (by simp)
  · exact hBlocked

/-
  Without links, files that were there are changed if and only
  if writing stops halfway.
-/
theorem sameFiles_iff
    (hLinks : NoLinks fs)
    (h : set.writeAll root fs = .error e fs') :
    SameFiles fs fs' ↔ ¬ set.StopsHalfway root fs := by
  constructor
  · intro hSame hStops
    exact not_sameFiles_of_stopsHalfway hLinks hStops h hSame
  · intro hNot
    rcases grows_or_interrupted h with hGrows |
      ⟨grown, base, name, staged, done, path, rest, middle, last,
        hStaging, hStage, hExists, hSplit, hNil, hDone, hPath, -⟩
    · exact hGrows.sameFiles
    have hStaged : IsStaged set root fs grown base name staged :=
      ⟨hStaging, hStage⟩
    rcases exists_blocked_of_interrupted hLinks hStaged hExists hSplit
        hNil hDone hPath with
      ⟨hCheck, hRoot, first, file, others, hFiles, hFirst, hBlocked⟩
    -- what has been moved was there before
    have hKept : ∀ moved ∈ set.asStaged first,
        fs.entryAt? (destination fs.home root ++ Path.names moved.1) =
          some (.file moved.2.toUTF8) := by
      intro moved hMoved
      by_contra hOld
      exact hNot ⟨grown, base, name, staged, first, file, others,
        hStaging, hStage, isDirectory_iff.mpr ⟨hCheck, _, hRoot⟩,
        hFiles, hFirst, hBlocked, moved, hMoved, hOld⟩
    intro loc content
    rw [hStaged.writeAll_stops hLinks hExists hRoot hFiles hFirst
      hBlocked h]
    by_cases hUnder : base ++ [name] <+: loc
    · simp [hUnder, hStaging.none_of_isPrefix hUnder]
    · rw [and_iff_right hUnder]
      apply overlay_eq_file_iff hKept
      rw [hStaged.entryAt?_outside hUnder]
      exact hStaging.grows.sameFiles loc content

/- Without links nothing is left of the staging. -/
theorem stagingIsGone
    (hLinks : NoLinks fs)
    (h : set.writeAll root fs = .error e fs') :
    set.StagingIsGone root fs fs' := by
  rcases grows_or_interrupted h with hGrows |
    ⟨grown, base, name, staged, done, path, rest, middle, last,
      hStaging, hStage, hExists, hSplit, -, hDone, hPath, rfl⟩
  · exact stagingIsGone_of_grows hGrows
  · have hStaged : IsStaged set root fs grown base name staged :=
      ⟨hStaging, hStage⟩
    intro other otherBase otherName hOther
    rcases hStaging.unique hOther with ⟨rfl, rfl, rfl⟩
    have hPublish :
        set.publish root (Path.join (stagingParent root) name)
          (grown.withStaging base name) = .error e last := by
      rw [hStaged.publish_eq_moveFiles hExists, hSplit]
      exact moveFiles_of_error hDone hPath rest
    rw [hStaging.entryAt?_of_publish_error hLinks hPublish,
      if_pos (List.prefix_refl _)]

/-
  Writing a set that fails before any file has been moved
  leaves what was there, and at most new directories with names
  that the output directory or a path mentions; there is no
  staging directory.  Only some files may have been moved
  otherwise.  Without links the staging directory is always
  removed, and the files are the same as before exactly if
  writing does not stop halfway.  It does not if the path of the
  output directory does not go up, and all files have different
  places and paths that can be used.
-/
theorem writeAll_error
    (set : ArtifactSet)
    (root : String)
    (fs fs' : FileSystem)
    (e : WriteError)
    (h : set.writeAll root fs = .error e fs') :
    (SameFiles fs fs' ∧ set.StagingIsGone root fs fs' ∧
        Grows (EndsIn (set.mentioned root)) fs fs' ∨
      set.Interrupted root fs fs' e) ∧
    (NoLinks fs → set.StagingIsGone root fs fs' ∧
      (SameFiles fs fs' ↔ ¬ set.StopsHalfway root fs) ∧
      (.parent ∉ Path.components root → DistinctPlaces set.files →
        (∀ path ∈ set.paths,
          checkPath (Path.join root path) = .ok ()) →
        ¬ set.StopsHalfway root fs)) := by
  constructor
  · rcases grows_or_interrupted h with hGrows | hInterrupted
    · exact Or.inl
        ⟨hGrows.sameFiles, stagingIsGone_of_grows hGrows, hGrows⟩
    · exact Or.inr hInterrupted
  · intro hLinks
    refine ⟨stagingIsGone hLinks h, sameFiles_iff hLinks h, ?_⟩
    intro hUp hDistinct hChecks
    rw [parent_mem_components_iff, not_not] at hUp
    exact not_stopsHalfway hLinks hUp hDistinct hChecks

/-
  Two paths to one place get as far as the second of them: the
  first file has been moved then, with the second content.
-/
theorem writeAll_error_twice :
    ∃ e fs',
      (ofList [("a", "1"), ("./a", "2")]).writeAll "out"
          (Writing.final (createDirectories "out") bare) =
        .error e fs' ∧
      fs'.entryAt? ["out", "a"] = some (.file "2".toUTF8) ∧
      (ofList [("a", "1"), ("./a", "2")]).StopsHalfway "out"
        (Writing.final (createDirectories "out") bare) := by
  have hEnd : (match (ofList [("a", "1"), ("./a", "2")]).writeAll "out"
      (Writing.final (createDirectories "out") bare) with
    | .ok _ _ => none
    | .error _ fs' => fs'.entryAt? ["out", "a"]) =
      some (.file "2".toUTF8) := by decide +kernel
  have hGrows := createDirectories_grows "out" bare
  have hLinks := noLinks_bare.grows hGrows
  cases hRun : (ofList [("a", "1"), ("./a", "2")]).writeAll "out"
      (Writing.final (createDirectories "out") bare) with
  | ok written fs' => simp [hRun] at hEnd
  | error e fs' =>
      rw [hRun] at hEnd
      refine ⟨e, fs', rfl, hEnd, ?_⟩
      by_contra hNot
      have hSame := ((writeAll_error _ "out" _ fs' e hRun).2
        hLinks).2.1.mpr hNot
      have hOld := (hGrows.sameFiles _ _).mp ((hSame _ _).mp hEnd)
      simp [entryAt?_bare] at hOld

end ArtifactSet

end Bindery

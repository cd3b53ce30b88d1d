import Bindery.Proofs.Artifact.Publishing
import Bindery.Proofs.Artifact.Feasibility

/-
  This file says what is where once a set of files that has
  been staged is written, to an output directory that was
  missing or to one that is there.  There may be links
  elsewhere.

  Key theorems include:
    * `removeAt_of_none`
    * `IsStaged.writeAll_new`
    * `IsStaged.writeAll_over`
-/

namespace Bindery

open FileSystem

------------------------------------------------------------
-- A New Output Directory
------------------------------------------------------------

/- Nothing is removed where nothing is. -/
theorem removeAt_of_none
    {fs : FileSystem}
    {path name : String}
    {dir : Location}
    (hLies : fs.LiesIn path dir name)
    (hSlash : Path.endsInSlash path = false)
    (hNone : fs.entryAt? (dir ++ [name]) = none) :
    removeAt path fs = fs := by
  have hLink : ∀ target,
      fs.entryAt? (dir ++ [name]) ≠ some (.link target) := by
    simp [hNone]
  unfold removeAt
  cases hLocate : fs.locate path with
  | error e => rfl
  | ok loc =>
      have hFound := ((hLies.resolve_eq_ok_iff hSlash hLink).mp
        (locate_eq_ok_iff.mp hLocate)).2
      simp [hNone] at hFound

namespace IsStaged

variable {set : ArtifactSet} {root name last : String}
variable {fs grown staged : FileSystem} {base : Location}

theorem keeps
    (h : IsStaged set root fs grown base name staged) :
    Keeps grown staged :=
  h.isStaging.grows.keeps.trans h.fills.keeps

/- What the path of the output directory names is not the staging. -/
theorem not_prefix_of_liesIn
    (h : IsStaged set root fs grown base name staged)
    (hRoot : grown.LiesIn root base last) :
    ¬ base ++ [name] <+: base ++ [last] := by
  intro hPrefix
  rw [List.prefix_append_right_inj] at hPrefix
  obtain rfl : name = last := by simpa using hPrefix
  exact h.isStaging.fresh
    (List.mem_append_left _ hRoot.mem_names)

/-
  Where there was no output directory, the staging directory
  becomes the output directory.
-/
theorem publish_new
    (h : IsStaged set root fs grown base name staged)
    (hCheck : checkPath root = .ok ())
    (hSlash : Path.endsInSlash root = false)
    (hRoot : grown.LiesIn root base last)
    (hNone : grown.entryAt? (base ++ [last]) = none) :
    ∃ published,
      set.publish root (Path.join (stagingParent root) name)
        (grown.withStaging base name) = .ok () published ∧
      published.home = grown.home ∧
      ∀ loc, published.entryAt? loc =
        if base ++ [last] <+: loc then
          staged.entryAt? (base ++ [name] ++ loc.drop (base.length + 1))
        else grown.entryAt? loc := by
  have hStagedNone : staged.entryAt? (base ++ [last]) = none := by
    rw [h.entryAt?_outside (h.not_prefix_of_liesIn hRoot), hNone]
  have hStagedRoot := hRoot.mono h.keeps
  have hExists : staged.exists? root = false := by
    have hIff := hStagedRoot.exists?_iff hCheck hSlash
      (by simp [hStagedNone])
    simpa [hStagedNone] using hIff
  rcases rename_directory h.isStaging.check hCheck
      (h.isStaging.liesIn h.keeps) hStagedRoot
      h.leadsToStaging.directory hStagedNone with
    ⟨published, hRename, hHome, hEntries⟩
  refine ⟨published, ?_, hHome.trans h.keeps.home, fun loc => ?_⟩
  · rw [ArtifactSet.publish_of_staged h.stage,
      if_neg (by simp [hExists])]
    exact Writing.perform_eq_ok_iff.mpr hRename
  · rw [hEntries]
    by_cases hStaging : base ++ [name] <+: loc
    · rw [if_pos hStaging, h.isStaging.none_below loc hStaging]
    · rw [if_neg hStaging, h.entryAt?_outside hStaging]

/- Nothing is left to remove then. -/
theorem writeAll_new
    (h : IsStaged set root fs grown base name staged)
    (hFiles : set.files ≠ [])
    (hCheck : checkPath root = .ok ())
    (hSlash : Path.endsInSlash root = false)
    (hRoot : grown.LiesIn root base last)
    (hNone : grown.entryAt? (base ++ [last]) = none) :
    ∃ fs', set.writeAll root fs = .ok (set.places root) fs' ∧
      Keeps grown fs' ∧
      ∀ loc, fs'.entryAt? loc =
        if base ++ [last] <+: loc then
          staged.entryAt? (base ++ [name] ++ loc.drop (base.length + 1))
        else grown.entryAt? loc := by
  rcases h.publish_new hCheck hSlash hRoot hNone with
    ⟨published, hPublish, hHome, hEntries⟩
  have hKept : ∀ loc e, grown.entryAt? loc = some e →
      published.entryAt? loc = some e := by
    intro loc e hLoc
    rw [hEntries, if_neg, hLoc]
    intro hPrefix
    simp [entryAt?_of_isPrefix_of_none hPrefix hNone] at hLoc
  have hKeeps : Keeps grown published :=
    ⟨hHome, fun loc => hKept loc _, fun loc _ => hKept loc _⟩
  have hGone : published.entryAt? (base ++ [name]) = none := by
    rw [hEntries, if_neg, h.isStaging.none]
    intro hPrefix
    rw [List.prefix_append_right_inj] at hPrefix
    obtain rfl : last = name := by simpa using hPrefix
    exact h.not_prefix_of_liesIn hRoot (List.prefix_refl _)
  have hWrite := h.toHasStaging.writeAll_eq_ok hFiles hPublish
  rw [removeAt_of_none (h.isStaging.liesIn hKeeps)
    h.isStaging.endsInSlash hGone] at hWrite
  exact ⟨published, hWrite, hKeeps, hEntries⟩

------------------------------------------------------------
-- An Output Directory That Is There
------------------------------------------------------------

/- Staged files can be moved to places apart from the staging. -/
theorem movesBelow
    {target : Location}
    (h : IsStaged set root fs grown base name staged)
    (hRootNe : root ≠ "")
    (hRoot : grown.LeadsTo root target)
    (hLinks : NoLinksBelow grown target)
    (hApart : ∀ path ∈ set.paths,
      ¬ base ++ [name] <+: target ++ Path.names path) :
    MovesBelow staged (Path.join (stagingParent root) name) root
      (base ++ [name]) target set.paths where
  stagingNe := h.staging_ne_empty
  rootNe := hRootNe
  staged := h.leadsToStaging
  rooted := hRoot.mono h.keeps
  sourceLinks := h.fills.noLinks h.isStaging.noLinksBelow
  targetLinks := by
    intro below link
    by_cases hStaging : base ++ [name] <+: target ++ below
    · rcases hStaging with ⟨others, hEq⟩
      rw [← hEq]
      exact h.fills.noLinks h.isStaging.noLinksBelow others link
    · rw [h.entryAt?_outside hStaging]
      exact hLinks below link
  inside := h.inside
  apart := hApart

/-
  Where there is an output directory with room for the files,
  they are moved there one by one.
-/
theorem writeAll_over
    {target : Location}
    (h : IsStaged set root fs grown base name staged)
    (hFiles : set.files ≠ [])
    (hDistinct : DistinctPlaces set.files)
    (hCheck : checkPath root = .ok ())
    (hRoot : grown.LeadsTo root target)
    (hLinks : NoLinksBelow grown target)
    (hApart : ∀ path ∈ set.paths,
      ¬ base ++ [name] <+: target ++ Path.names path)
    (hWritable : ∀ file ∈ set.files,
      IsWritable grown root target file.1) :
    ∃ fs', set.writeAll root fs = .ok (set.places root) fs' ∧
      ∀ loc, fs'.entryAt? loc =
        if base ++ [name] <+: loc then none
        else overlay target set.files grown.entryAt? loc := by
  have hMoves := h.movesBelow (ne_empty_of_checkPath hCheck) hRoot
    hLinks hApart
  have hExists : staged.exists? root = true :=
    exists?_of_isDirectory
      (isDirectory_iff.mpr ⟨hCheck, target, hMoves.rooted⟩)
  have hFree : ∀ file ∈ set.files,
      IsWritable staged root target file.1 := by
    intro file hFile
    have hOld := hWritable file hFile
    have hSame : ∀ above, above <+: Path.names file.1 →
        staged.entryAt? (target ++ above) =
          grown.entryAt? (target ++ above) := by
      intro above hAbove
      apply h.entryAt?_outside
      intro hPrefix
      exact hApart file.1 (List.mem_map_of_mem hFile)
        (hPrefix.trans
          ((List.prefix_append_right_inj target).mpr hAbove))
    rcases hOld.ends.exists_names with ⟨init, last, hNames⟩
    exact ⟨hOld.ends, hOld.fits, hOld.check, hOld.free.of_below
      hMoves.rooted.directory (by simp [hNames])
      fun above hAbove _ => hSame above hAbove⟩
  rcases hMoves.moveFiles_succeeds
      (fun file hFile => List.mem_map_of_mem hFile)
      (fun file hFile => h.entryAt?_file hDistinct hFile)
      hDistinct h.noneAbove
      (fun file hFile => (h.of_mem hFile).2.2) hFree with
    ⟨published, hMove, hAfter, hMoved⟩
  have hPublish := (h.publish_eq_moveFiles hExists).trans hMove
  refine ⟨_, h.toHasStaging.writeAll_eq_ok hFiles hPublish,
    fun loc => ?_⟩
  rw [removeAt_of_leadsTo h.isStaging.check hAfter.staged,
    entryAt?_remove]
  by_cases hStaging : base ++ [name] <+: loc
  · rw [if_pos hStaging, if_pos hStaging]
  · rw [if_neg hStaging, if_neg hStaging, hMoved.placed loc hStaging]
    exact overlay_congr (h.entryAt?_outside hStaging)

end IsStaged

end Bindery

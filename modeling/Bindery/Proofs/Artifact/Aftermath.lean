import Bindery.Proofs.Artifact.Success

/-
  This file says which ways are still open once a set of files
  has been written.  There are no links, and the path of the
  output directory may go up: directories that were on the way
  to it stay, and only the staging directory is gone.

  Key definitions include:
    * `HasWritten`

  Key theorems include:
    * `FileSystem.Leads.of_visited`
    * `FileSystem.LeadsTo.of_apart`
    * `moveFiles_keeps`
    * `HasStaging.directory_of_publish`
    * `HasStaging.hasWritten`
    * `HasWritten.liesIn_place`
    * `HasWritten.readText_place`
-/

namespace Bindery

open FileSystem
open Bindery.Path (Step EndsIn)

------------------------------------------------------------
-- Ways Apart from a Directory
------------------------------------------------------------

namespace FileSystem

variable {fs fs' : FileSystem}

/- A way without links depends on the directories it visits. -/
theorem Leads.of_visited
    {links : Nat}
    {here loc : Location}
    {way : List Step}
    (hLinks : NoLinks fs)
    (h : fs.Leads links here way loc)
    (hVisited : ∀ front, front <+: way →
      fs.entryAt? (Path.arrive here front) = some .directory →
        fs'.entryAt? (Path.arrive here front) = some .directory) :
    fs'.Leads links here way loc := by
  induction h with
  | here hHere => exact .here (hVisited [] List.nil_prefix hHere)
  | stay hHere _ ih =>
      refine .stay (hVisited [] List.nil_prefix hHere) (ih ?_)
      intro front hFront
      exact hVisited (.stay :: front)
        (List.cons_prefix_cons.mpr ⟨rfl, hFront⟩)
  | up hHere _ ih =>
      refine .up (hVisited [] List.nil_prefix hHere) (ih ?_)
      intro front hFront
      exact hVisited (.up :: front)
        (List.cons_prefix_cons.mpr ⟨rfl, hFront⟩)
  | @enter _ _ name _ _ hHere hFits hChild _ ih =>
      refine .enter (hVisited [] List.nil_prefix hHere) hFits
        (hVisited [.enter name] (by simp) hChild) (ih ?_)
      intro front hFront
      exact hVisited (.enter name :: front)
        (List.cons_prefix_cons.mpr ⟨rfl, hFront⟩)
  | link _ _ hChild _ _ => exact absurd hChild (hLinks _ _)

/-
  A way that passes a directory by leads where it did, whatever
  has become of that directory.
-/
theorem Leads.of_apart
    {links : Nat}
    {source here loc : Location}
    {way : List Step}
    (hLinks : NoLinks fs)
    (hKept : ∀ other, ¬ source <+: other →
      fs.entryAt? other = some .directory →
        fs'.entryAt? other = some .directory)
    (hApart : ∀ other, OnWay here (way.filterMap Step.name?) other →
      ¬ source <+: other)
    (h : fs.Leads links here way loc) :
    fs'.Leads links here way loc :=
  h.of_visited hLinks fun _ hFront =>
    hKept _ (hApart _ (onWay_arrive hFront))

theorem LeadsTo.of_apart
    {path : String}
    {source loc : Location}
    (hLinks : NoLinks fs)
    (hHome : fs'.home = fs.home)
    (hKept : ∀ other, ¬ source <+: other →
      fs.entryAt? other = some .directory →
        fs'.entryAt? other = some .directory)
    (hApart : ∀ other,
      OnWay (startOf fs.home path) (Path.names path) other →
        ¬ source <+: other)
    (h : fs.LeadsTo path loc) :
    fs'.LeadsTo path loc := by
  unfold LeadsTo at h ⊢
  rw [hHome]
  rw [Path.names_eq_filterMap_moves] at hApart
  exact Leads.of_apart hLinks hKept hApart h

/- So does the last name on such a way lie where it did. -/
theorem LiesIn.of_apart
    {path name : String}
    {source dir : Location}
    (hLinks : NoLinks fs)
    (hHome : fs'.home = fs.home)
    (hKept : ∀ other, ¬ source <+: other →
      fs.entryAt? other = some .directory →
        fs'.entryAt? other = some .directory)
    (hApart : ∀ other,
      OnWay (startOf fs.home path) (Path.names path) other →
        ¬ source <+: other)
    (h : fs.LiesIn path dir name) :
    fs'.LiesIn path dir name where
  fits := h.fits
  way := by
    rcases h.way with ⟨init, hSteps, hLeads⟩
    refine ⟨init, hSteps, ?_⟩
    rw [hHome]
    refine hLeads.of_visited hLinks fun front hFront =>
      hKept _ (hApart _ ?_)
    rw [Path.names, hSteps]
    exact onWay_arrive (hFront.trans (List.prefix_append _ _))

end FileSystem

------------------------------------------------------------
-- Directories That Stay
------------------------------------------------------------

/- Moving files takes away no directory. -/
theorem moveFiles_keeps
    {fs fs' : FileSystem}
    {staging root : String}
    {source target : Location}
    {paths rest : List String}
    (h : IsMoving fs staging root source target paths)
    (hRest : rest ⊆ paths)
    (hMove : moveFiles staging root rest fs = .ok () fs') :
    Keeps fs fs' := by
  induction rest generalizing fs with
  | nil =>
      have hEq : fs = fs' := by
        simpa [moveFiles, pure, EStateM.pure] using hMove
      exact hEq ▸ Keeps.refl fs
  | cons path others ih =>
      rcases List.cons_subset.mp hRest with ⟨hPath, hOthers⟩
      rw [moveFiles_cons] at hMove
      rcases Writing.bind_eq_ok_iff.mp hMove with
        ⟨⟨⟩, after, hOne, hMore⟩
      rcases h.exists_middle hPath hOne with
        ⟨middle, -, hGrows, hMiddle, -, hRename⟩
      exact (hGrows.keeps.trans (hMiddle.rename_keeps hPath hRename).2).trans
        (ih (hMiddle.rename hPath hRename) hOthers hMore)

namespace HasStaging

variable {set : ArtifactSet} {root name : String}
variable {fs grown published : FileSystem} {base : Location}

/- Publishing takes away no directory but the staging directory. -/
theorem directory_of_publish
    (h : HasStaging set root fs grown base name)
    (hLinks : NoLinks fs)
    (hPublish :
      set.publish root (Path.join (stagingParent root) name)
        (grown.withStaging base name) = .ok () published)
    {loc : Location}
    (hLoc : ¬ base ++ [name] <+: loc)
    (hDirectory : grown.entryAt? loc = some .directory) :
    published.entryAt? loc = some .directory := by
  rcases h.exists_isStaged hPublish with ⟨staged, hStaged, hMove⟩
  rw [← hStaged.entryAt?_outside hLoc] at hDirectory
  by_cases hExists : staged.exists? root = true
  · rw [if_pos hExists] at hMove
    exact (moveFiles_keeps
      (hStaged.isMoving hLinks (ne_empty_of_exists? hExists))
      (List.Subset.refl _) hMove).directory loc hDirectory
  · rw [if_neg hExists] at hMove
    have hBecome := (rename_hasBecome (hStaged.noLinks hLinks)
      hStaged.leadsToStaging (by rw [hStaged.home])
      h.not_prefix_destination hMove).2
    by_cases hTarget : destination fs.home root <+: loc
    · -- only an empty directory gives way to the staging directory
      rcases hTarget with ⟨below, rfl⟩
      rcases hBecome.vacant below with hNone | ⟨rfl, -⟩
      · simp [hNone] at hDirectory
      · rw [hBecome.moved, List.append_nil,
          hStaged.leadsToStaging.directory]
    · rw [hBecome.kept loc hLoc hTarget, hDirectory]

/- What has been published to was there or lay in a directory. -/
theorem root_of_published
    (h : HasStaging set root fs grown base name)
    (hLinks : NoLinks fs)
    (hFiles : set.files ≠ [])
    (hPublish :
      set.publish root (Path.join (stagingParent root) name)
        (grown.withStaging base name) = .ok () published) :
    checkPath root = .ok () ∧
      ∃ staged, IsStaged set root fs grown base name staged ∧
        (staged.LeadsTo root (destination fs.home root) ∨
          ∃ dir last, staged.LiesIn root dir last ∧
            destination fs.home root = dir ++ [last]) := by
  rcases h.exists_isStaged hPublish with ⟨staged, hStaged, hMove⟩
  by_cases hExists : staged.exists? root = true
  · rw [if_pos hExists] at hMove
    have hPaths : set.paths ≠ [] := by
      simpa [ArtifactSet.paths, Keyed.keys] using hFiles
    rcases hStaged.leadsTo_of_moveFiles hLinks hExists hPaths
        (List.Subset.refl _) hMove with
      ⟨hCheck, hLeads⟩
    exact ⟨hCheck, staged, hStaged, Or.inl hLeads⟩
  · rw [if_neg hExists] at hMove
    rcases FileSystem.rename_eq_ok hMove with
      ⟨-, -, dir, last, -, hLies, hCheck, -⟩
    refine ⟨hCheck, staged, hStaged, Or.inr ⟨dir, last, hLies, ?_⟩⟩
    rw [hLies.eq_destination (hStaged.noLinks hLinks), hStaged.home]

end HasStaging

------------------------------------------------------------
-- A Set That Has Been Written
------------------------------------------------------------

/-
  The files of a set lie over what was there when its staging
  directory was made, and that directory is gone.  The ways to
  the output directory and to the one above it are open.
-/
structure HasWritten
    (set : ArtifactSet)
    (root : String)
    (fs grown : FileSystem)
    (base : Location)
    (name : String)
    (fs' : FileSystem) : Prop
    extends HasStaging set root fs grown base name where
  staged : ∃ staged, IsStaged set root fs grown base name staged
  home : fs'.home = fs.home
  noLinks : NoLinks fs'
  rootCheck : checkPath root = .ok ()
  parentLeads : fs'.LeadsTo (stagingParent root) base
  rooted : fs'.LeadsTo root (destination fs.home root)
  entries : ∀ loc, fs'.entryAt? loc =
    if base ++ [name] <+: loc then none
    else overlay (destination fs.home root) set.files grown.entryAt? loc

namespace HasStaging

variable {set : ArtifactSet} {root name : String}
variable {fs grown published : FileSystem} {base : Location}

/- The staging directory is not on the way to the one it lies in. -/
theorem not_prefix_of_onWay_parent
    (h : HasStaging set root fs grown base name)
    {loc : Location}
    (hOn : OnWay (startOf grown.home (stagingParent root))
      (Path.names (stagingParent root)) loc) :
    ¬ base ++ [name] <+: loc := by
  intro hLoc
  rcases hOn _ hLoc with hStart | ⟨other, hOther, hLast⟩
  · -- the way starts at a directory, and the staging was not there
    have hHere := Leads.directory_here h.isStaging.parentLeads
    have hNone := entryAt?_of_isPrefix_of_none hStart h.isStaging.none
    simp [hHere] at hNone
  · have hEq : name = other := by simpa using hLast
    exact h.isStaging.fresh (List.mem_append_left _
      (names_stagingParent_subset root (hEq ▸ hOther)))

/- The directories that were there before are there in the end. -/
theorem directory_of_clear
    (h : HasStaging set root fs grown base name)
    (hLinks : NoLinks fs)
    (hPublish :
      set.publish root (Path.join (stagingParent root) name)
        (grown.withStaging base name) = .ok () published)
    {loc : Location}
    (hLoc : ¬ base ++ [name] <+: loc)
    (hDirectory : grown.entryAt? loc = some .directory) :
    (removeAt (Path.join (stagingParent root) name)
      published).entryAt? loc = some .directory := by
  have hClear := h.entryAt?_publishAndClear hLinks loc
  rw [ArtifactSet.final_publishAndClear, Writing.final_of_ok hPublish]
    at hClear
  rw [hClear, if_neg hLoc]
  exact h.directory_of_publish hLinks hPublish hLoc hDirectory

/- What is where once a set has been published and cleared away. -/
theorem entryAt?_clear
    (h : HasStaging set root fs grown base name)
    (hLinks : NoLinks fs)
    (hFiles : set.files ≠ [])
    (hDistinct : DistinctPlaces set.files)
    (hPublish :
      set.publish root (Path.join (stagingParent root) name)
        (grown.withStaging base name) = .ok () published)
    (loc : Location) :
    (removeAt (Path.join (stagingParent root) name)
      published).entryAt? loc =
        if base ++ [name] <+: loc then none
        else overlay (destination fs.home root) set.files grown.entryAt?
          loc := by
  have hClear := h.entryAt?_publishAndClear hLinks loc
  rw [ArtifactSet.final_publishAndClear, Writing.final_of_ok hPublish]
    at hClear
  rw [hClear]
  split
  · rfl
  · rename_i hLoc
    exact h.entryAt?_published hLinks hFiles hDistinct hPublish hLoc

/- The way to the output directory is open in the end. -/
theorem leadsTo_root_of_clear
    (h : HasStaging set root fs grown base name)
    (hLinks : NoLinks fs)
    (hFiles : set.files ≠ [])
    (hDistinct : DistinctPlaces set.files)
    (hPublish :
      set.publish root (Path.join (stagingParent root) name)
        (grown.withStaging base name) = .ok () published)
    {after : FileSystem}
    (hAfter : after = removeAt (Path.join (stagingParent root) name)
      published)
    (hHome : after.home = fs.home) :
    after.LeadsTo root (destination fs.home root) := by
  rcases (h.root_of_published hLinks hFiles hPublish).2 with
    ⟨staged, hStaged, hRoot⟩
  have hKept : ∀ loc, ¬ base ++ [name] <+: loc →
      staged.entryAt? loc = some .directory →
        after.entryAt? loc = some .directory := by
    intro loc hLoc hDirectory
    rw [hStaged.entryAt?_outside hLoc] at hDirectory
    exact hAfter ▸ h.directory_of_clear hLinks hPublish hLoc hDirectory
  have hApart : ∀ loc,
      OnWay (startOf staged.home root) (Path.names root) loc →
        ¬ base ++ [name] <+: loc := by
    intro loc hOn
    rw [hStaged.home] at hOn
    exact h.not_prefix_of_onWay (List.subset_append_left _ _) hOn
  have hSame := hHome.trans hStaged.home.symm
  rcases hRoot with hLeads | ⟨dir, last, hLies, hTarget⟩
  · exact hLeads.of_apart (hStaged.noLinks hLinks) hSame hKept hApart
  · rcases List.exists_mem_of_ne_nil _ hFiles with ⟨file, hFile⟩
    rcases (hStaged.of_mem hFile).1.exists_names with
      ⟨init, final, hNames⟩
    have hEntry := h.entryAt?_clear hLinks hFiles hDistinct hPublish
      (destination fs.home root ++ Path.names file.1)
    rw [if_neg (h.not_prefix_place (List.mem_map_of_mem hFile)), overlay,
      lastAt_of_distinct hDistinct hFile, ← hAfter] at hEntry
    rw [hTarget] at hEntry ⊢
    -- there is a file in the output directory
    exact (hLies.of_apart (hStaged.noLinks hLinks) hSame hKept
      hApart).leadsTo (directory_of_append (Path.names file.1)
        (by simp [hNames]) (by rw [hEntry]; simp))

/- Once a set has been published and cleared away, it is written. -/
theorem hasWritten
    (h : HasStaging set root fs grown base name)
    (hLinks : NoLinks fs)
    (hFiles : set.files ≠ [])
    (hDistinct : DistinctPlaces set.files)
    (hPublish :
      set.publish root (Path.join (stagingParent root) name)
        (grown.withStaging base name) = .ok () published) :
    HasWritten set root fs grown base name
      (removeAt (Path.join (stagingParent root) name) published) := by
  have hSpares := h.publish_spares hLinks
  rw [Writing.final_of_ok hPublish] at hSpares
  have hHome : (removeAt (Path.join (stagingParent root) name)
      published).home = fs.home := by
    rw [home_removeAt, hSpares.spares.home, h.home_withStaging]
  rcases h.root_of_published hLinks hFiles hPublish with
    ⟨hCheck, staged, hStaged, -⟩
  refine ⟨h, ⟨staged, hStaged⟩, hHome, ?_, hCheck, ?_,
    h.leadsTo_root_of_clear hLinks hFiles hDistinct hPublish rfl hHome,
    h.entryAt?_clear hLinks hFiles hDistinct hPublish⟩
  · intro loc target
    have hClear := h.entryAt?_publishAndClear hLinks loc
    rw [ArtifactSet.final_publishAndClear, Writing.final_of_ok hPublish]
      at hClear
    rw [hClear]
    split
    · simp
    · exact hSpares.noLinks loc target
  · exact h.isStaging.parentLeads.of_apart (hLinks.grows h.grows)
      (hHome.trans h.grows.home.symm)
      (fun _ => h.directory_of_clear hLinks hPublish)
      fun _ => h.not_prefix_of_onWay_parent

end HasStaging

namespace HasWritten

variable {set : ArtifactSet} {root name : String}
variable {fs grown fs' : FileSystem} {base : Location}

/- The files of a set that has been written are there. -/
theorem entryAt?_file
    (h : HasWritten set root fs grown base name fs')
    (hDistinct : DistinctPlaces set.files)
    {file : String × String}
    (hFile : file ∈ set.files) :
    fs'.entryAt? (destination fs.home root ++ Path.names file.1) =
      some (.file file.2.toUTF8) := by
  rw [h.entries, if_neg (h.not_prefix_place (List.mem_map_of_mem hFile)),
    overlay, lastAt_of_distinct hDistinct hFile]

/- A file that has been written lies where its path says. -/
theorem liesIn_place
    (h : HasWritten set root fs grown base name fs')
    (hDistinct : DistinctPlaces set.files)
    {file : String × String}
    (hFile : file ∈ set.files) :
    ∃ dir last, fs'.LiesIn (Path.join root file.1) dir last ∧
      dir ++ [last] =
        destination fs.home root ++ Path.names file.1 := by
  rcases h.staged with ⟨staged, hStaged⟩
  rcases hStaged.of_mem hFile with ⟨hEnds, hFits, -⟩
  rcases hEnds.exists_names with ⟨init, last, hNames⟩
  have hEntry := h.entryAt?_file hDistinct hFile
  rw [hNames, ← List.append_assoc] at hEntry ⊢
  refine ⟨_, last, liesIn_join_of_endsInName h.rooted
    (ne_empty_of_checkPath h.rootCheck)
    (h.inside file.1 (List.mem_map_of_mem hFile)) hEnds hFits hNames ?_,
    rfl⟩
  rw [hEntry]
  simp

/- It is read by that path unless the path is too long. -/
theorem readText_place
    (h : HasWritten set root fs grown base name fs')
    (hDistinct : DistinctPlaces set.files)
    {file : String × String}
    (hFile : file ∈ set.files)
    (hLength : Text.byteLength (Path.join root file.1).toList ≤
      maxPathLength) :
    fs'.readText (Path.join root file.1) = .ok file.2 := by
  rcases h.staged with ⟨staged, hStaged⟩
  rcases hStaged.of_mem hFile with ⟨hEnds, -, hCheck⟩
  have hInside := h.inside file.1 (List.mem_map_of_mem hFile)
  have hEntry := h.entryAt?_file hDistinct hFile
  rcases h.liesIn_place hDistinct hFile with ⟨dir, last, hLies, hPlace⟩
  rw [← hPlace] at hEntry
  refine hLies.readText ?_ ?_ hEntry
  · rw [Path.endsInSlash_join (ne_empty_of_checkPath h.rootCheck)
      hInside.ne_empty hInside.relative, hEnds.noSlash]
  · exact checkPath_join h.rootCheck h.staging_ne_empty hInside.relative
      hCheck hLength

end HasWritten

/- A set that has been written without links. -/
theorem ArtifactSet.exists_hasWritten
    {set : ArtifactSet}
    {root : String}
    {fs fs' : FileSystem}
    {written : List String}
    (hLinks : NoLinks fs)
    (hFiles : set.files ≠ [])
    (hDistinct : DistinctPlaces set.files)
    (h : set.writeAll root fs = .ok written fs') :
    written = set.places root ∧
      ∃ grown base name,
        HasWritten set root fs grown base name fs' := by
  rcases exists_hasStaging_of_ok hFiles h with
    ⟨grown, base, name, published, hStaging, hPublish, rfl, rfl⟩
  exact ⟨rfl, grown, base, name,
    hStaging.hasWritten hLinks hFiles hDistinct hPublish⟩

end Bindery

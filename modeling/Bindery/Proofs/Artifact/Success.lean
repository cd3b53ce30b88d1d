import Bindery.Proofs.Artifact.Publishing

/-
  This file says what is where once a set of files has been
  written.  There are no links; the path of the output directory
  may go up as long as only what has been moved is looked at.

  Key theorems include:
    * `IsStaged.leadsTo_of_moveFiles`
    * `HasStaging.entryAt?_published`
    * `ArtifactSet.entryAt?_writeAll`
    * `ArtifactSet.directory_above_writeAll`
-/

namespace Bindery

open FileSystem
open Bindery.Path (Step EndsIn Component)

------------------------------------------------------------
-- Directories Above the Output Directory
------------------------------------------------------------

/- The directories made first are above the output directory. -/
theorem createStagingParent_grows
    {fs : FileSystem}
    {root : String}
    (hLinks : NoLinks fs)
    (hForward : Path.Forward root) :
    Grows (· <+: destination fs.home root) fs
      (Writing.final (createDirectories (stagingParent root)) fs) := by
  rcases stagingParent_spec root with ⟨hMoves, hSame | ⟨hDot, -⟩⟩
  · apply (createDirectories_grows_forward hLinks
      (Path.forward_of_moves_isPrefix hMoves hForward)).mono
    intro loc hLoc
    exact hLoc.trans (destination_isPrefix fs hForward hSame hMoves)
  · -- the working directory is there, so nothing is made
    apply (createDirectories_grows (stagingParent root) fs).mono
    rw [hDot]
    rintro loc ⟨name, hName, -⟩
    simp [show Path.names "." = [] by decide] at hName

theorem overlay_of_grows
    {fs grown : FileSystem}
    {base : Location}
    {files : List (String × String)}
    (hGrows : Grows (· <+: base) fs grown)
    (hFiles : files ≠ [])
    (loc : Location) :
    overlay base files grown.entryAt? loc =
      overlay base files fs.entryAt? loc := by
  cases hOld : fs.entryAt? loc with
  | some e => exact overlay_congr (by rw [hGrows.kept loc e hOld, hOld])
  | none =>
      cases hNew : grown.entryAt? loc with
      | none => exact overlay_congr (hNew.trans hOld.symm)
      | some e =>
          rcases hGrows.new loc hOld (by simp [hNew]) with
            ⟨hDirectory, hLoc⟩
          rcases List.exists_mem_of_ne_nil _ hFiles with
            ⟨file, hFile⟩
          exact overlay_of_directory hOld hDirectory
            ⟨file, hFile, hLoc.trans (List.prefix_append _ _)⟩

------------------------------------------------------------
-- The Output Directory
------------------------------------------------------------

namespace IsStaged

variable {set : ArtifactSet} {root name : String}
variable {fs grown staged : FileSystem} {base : Location}

/- An output directory that is there is a directory. -/
theorem leadsTo_root
    (h : IsStaged set root fs grown base name staged)
    (hLinks : NoLinks fs)
    (hForward : Path.Forward root)
    (hFiles : set.files ≠ [])
    (hExists : staged.exists? root = true) :
    staged.LeadsTo root (destination fs.home root) := by
  rcases exists?_iff.mp hExists with ⟨loc, hResolve, hSome⟩
  rcases h.eq_destination_of_resolve hLinks hResolve with rfl
  by_contra hNot
  have hFile : staged.entryAt? (destination fs.home root) ≠
      some .directory := by
    intro hDirectory
    exact hNot
      ((resolve_eq_present_iff_leadsTo hDirectory).mp hResolve).2
  -- it is not new, so the checks have seen it
  have hSame : fs.entryAt? (destination fs.home root) =
      staged.entryAt? (destination fs.home root) := by
    rw [h.entryAt?_outside h.not_prefix_destination] at hFile ⊢
    exact (h.grows.entryAt?_eq_of_ne_directory hFile).symm
  have hBefore := exists?_of_forward hLinks (h.noLinks hLinks) h.home
    hForward hExists hSame hFile
  rcases List.exists_mem_of_ne_nil _ hFiles with ⟨file, hMem⟩
  have hCheck := (checkPaths_eq_ok_iff.mp h.checks file.1
    (List.mem_map_of_mem hMem)).2
  unfold checkDestination at hCheck
  cases hIs : fs.isDirectory root with
  | false => simp [hBefore, hIs] at hCheck
  | true =>
      rcases isDirectory_iff.mp hIs with ⟨-, loc, hLeads⟩
      have hLoc := hLeads.eq_destination hLinks
      rw [← hSame] at hFile
      exact hFile (hLoc ▸ hLeads.directory)

/- Files are moved only to an output directory that is one. -/
theorem leadsTo_of_moveFiles
    {middle : FileSystem}
    {done : List String}
    (h : IsStaged set root fs grown base name staged)
    (hLinks : NoLinks fs)
    (hExists : staged.exists? root = true)
    (hNe : done ≠ [])
    (hDone : done ⊆ set.paths)
    (hMove : moveFiles (Path.join (stagingParent root) name) root done
      staged = .ok () middle) :
    checkPath root = .ok () ∧
      staged.LeadsTo root (destination fs.home root) := by
  rcases exists?_iff.mp hExists with ⟨loc, hResolve, hThere⟩
  rcases h.eq_destination_of_resolve hLinks hResolve with rfl
  rcases List.exists_cons_of_ne_nil hNe with ⟨path, rest, rfl⟩
  rw [moveFiles_cons] at hMove
  rcases Writing.bind_eq_ok_iff.mp hMove with ⟨⟨⟩, after, hFirst, -⟩
  have hMoving := h.isMoving hLinks (ne_empty_of_exists? hExists)
  have hDirectory :=
    hMoving.directory_of_moveFile (hDone (by simp)) hThere hFirst
  exact (resolve_eq_present_iff_leadsTo hDirectory).mp hResolve

/- The staging directory as it was filled is the output directory. -/
theorem entryAt?_of_hasBecome
    {published : FileSystem}
    (h : IsStaged set root fs grown base name staged)
    (hFiles : set.files ≠ [])
    (hDirectory : ∀ above, above <+: destination fs.home root →
      above ≠ destination fs.home root →
        staged.entryAt? above = some .directory)
    (hBecome : HasBecome (base ++ [name]) (destination fs.home root)
      staged published)
    {loc : Location}
    (hLoc : ¬ base ++ [name] <+: loc) :
    published.entryAt? loc =
      overlay (destination fs.home root) set.files staged.entryAt?
        loc := by
  by_cases hTarget : destination fs.home root <+: loc
  · rcases hTarget with ⟨below, rfl⟩
    have hStaging := h.entryAt?_withStaging_append below
    rw [hBecome.moved, h.entryAt?_staged, overlay_append, overlay_append]
    by_cases hNil : below = []
    · rw [if_pos hNil] at hStaging
      rcases hBecome.vacant below with hNone | ⟨-, hThere⟩
      · rcases List.exists_mem_of_ne_nil _ hFiles with ⟨file, hFile⟩
        exact overlay_of_directory hNone hStaging
          ⟨file, hFile, by simp [hNil]⟩
      · apply overlay_congr
        rw [hStaging, hNil, List.append_nil, hThere]
    · rw [if_neg hNil] at hStaging
      have hNone := (hBecome.vacant below).resolve_right
        fun hEq => hNil hEq.1
      exact overlay_congr (hStaging.trans hNone.symm)
  · rw [hBecome.kept loc hLoc hTarget]
    unfold overlay
    cases hLast : lastAt (destination fs.home root) set.files loc with
    | some content =>
        rcases exists_of_lastAt hLast with ⟨file, -, -, rfl⟩
        exact absurd (List.prefix_append _ _) hTarget
    | none =>
        rw [if_neg]
        rintro ⟨hNone, file, -, hOn⟩
        rcases List.prefix_or_prefix_of_prefix hOn
          (List.prefix_append (destination fs.home root) _) with
          hAbove | hBelow
        · have hThere := hDirectory loc hAbove
            (fun hEq => hTarget (hEq ▸ List.prefix_refl _))
          simp [hNone] at hThere
        · exact hTarget hBelow

end IsStaged

namespace HasStaging

variable {set : ArtifactSet} {root name : String}
variable {fs grown published : FileSystem} {base : Location}

/- A set that has been published has been staged and moved. -/
theorem exists_isStaged
    (h : HasStaging set root fs grown base name)
    (hPublish :
      set.publish root (Path.join (stagingParent root) name)
        (grown.withStaging base name) = .ok () published) :
    ∃ staged, IsStaged set root fs grown base name staged ∧
      if staged.exists? root then
        moveFiles (Path.join (stagingParent root) name) root set.paths
          staged = .ok () published
      else
        staged.rename (Path.join (stagingParent root) name) root =
          .ok published := by
  rcases h.publish_cases with ⟨e, staged, -, hRun⟩ |
    ⟨staged, hStaged, hRun⟩
  · rw [hRun] at hPublish
    simp at hPublish
  refine ⟨staged, hStaged, ?_⟩
  rw [hRun] at hPublish
  split
  · rename_i hExists
    rwa [if_pos hExists] at hPublish
  · rename_i hExists
    rwa [if_neg hExists, Writing.perform_eq_ok_iff] at hPublish

/-
  However a set of files is moved, once it is published its
  files lie over what was there.
-/
theorem entryAt?_published
    (h : HasStaging set root fs grown base name)
    (hLinks : NoLinks fs)
    (hFiles : set.files ≠ [])
    (hDistinct : DistinctPlaces set.files)
    (hPublish :
      set.publish root (Path.join (stagingParent root) name)
        (grown.withStaging base name) = .ok () published)
    {loc : Location}
    (hLoc : ¬ base ++ [name] <+: loc) :
    published.entryAt? loc =
      overlay (destination fs.home root) set.files grown.entryAt?
        loc := by
  rcases h.exists_isStaged hPublish with ⟨staged, hStaged, hMove⟩
  have hOutside := hStaged.entryAt?_outside hLoc
  by_cases hExists : staged.exists? root = true
  · rw [if_pos hExists] at hMove
    have hPaths : set.paths ≠ [] := by
      simpa [ArtifactSet.paths, Keyed.keys] using hFiles
    rcases moveFiles_eq_ok
        (hStaged.isMoving hLinks (ne_empty_of_exists? hExists))
        (hStaged.leadsTo_of_moveFiles hLinks hExists hPaths
          (List.Subset.refl _) hMove).2
        (fun file hFile => List.mem_map_of_mem hFile)
        (fun file hFile => hStaged.entryAt?_file hDistinct hFile)
        hDistinct hMove with
      ⟨-, -, -, hMoved⟩
    rw [hMoved.placed loc hLoc]
    exact overlay_congr hOutside
  · rw [if_neg hExists] at hMove
    rcases
        rename_hasBecome (hStaged.noLinks hLinks) hStaged.leadsToStaging
          (by rw [hStaged.home]) h.not_prefix_destination hMove with
      ⟨⟨dir, last, hLies, hTarget⟩, hBecome⟩
    rw [hStaged.entryAt?_of_hasBecome hFiles _ hBecome hLoc]
    · exact overlay_congr hOutside
    · intro above hAbove hNe
      rw [hTarget] at hAbove hNe
      rcases List.prefix_concat_iff.mp hAbove with hEq | hDir
      · exact absurd hEq hNe
      · exact directory_above hDir hLies.directory

/- Nothing is laid over the place of the staging directory. -/
theorem overlay_of_isPrefix
    (h : HasStaging set root fs grown base name)
    {loc : Location}
    (hLoc : base ++ [name] <+: loc) :
    overlay (destination fs.home root) set.files fs.entryAt? loc =
      none := by
  have hApart : ∀ file ∈ set.files, ¬ loc <+:
      destination fs.home root ++ Path.names file.1 := by
    intro file hFile hOn
    exact h.not_prefix_place (List.mem_map_of_mem hFile)
      (hLoc.trans hOn)
  unfold overlay
  cases hLast : lastAt (destination fs.home root) set.files loc with
  | some content =>
      rcases exists_of_lastAt hLast with ⟨file, hFile, -, rfl⟩
      exact absurd (List.prefix_refl _) (hApart file hFile)
  | none =>
      rw [if_neg, h.none_of_isPrefix hLoc]
      rintro ⟨-, file, hFile, hOn⟩
      exact hApart file hFile hOn

/- An output directory that is published to has a proper path. -/
theorem root_of_publish
    (h : HasStaging set root fs grown base name)
    (hLinks : NoLinks fs)
    (hForward : Path.Forward root)
    (hFiles : set.files ≠ [])
    (hPublish :
      set.publish root (Path.join (stagingParent root) name)
        (grown.withStaging base name) = .ok () published) :
    checkPath root = .ok () ∧ (∀ n ∈ Path.names root, FitsName n) ∧
      ∀ file ∈ set.files, Path.EndsInName file.1 ∧
        (∀ n ∈ Path.names file.1, FitsName n) ∧
        '\x00' ∉ file.1.toList := by
  rcases h.exists_isStaged hPublish with ⟨staged, hStaged, hMove⟩
  have hRoot : checkPath root = .ok () ∧
      ∀ n ∈ Path.names root, FitsName n := by
    by_cases hExists : staged.exists? root = true
    · rcases exists?_iff.mp hExists with ⟨found, hResolve, -⟩
      exact ⟨(resolve_eq_ok_iff.mp hResolve).1,
        (hStaged.leadsTo_root hLinks hForward hFiles hExists).fitsName⟩
    · rw [if_neg hExists] at hMove
      rcases FileSystem.rename_eq_ok hMove with
        ⟨-, -, dir, last, -, hLies, hCheck, -⟩
      exact ⟨hCheck, hLies.fitsName⟩
  refine ⟨hRoot.1, hRoot.2, fun file hFile => ?_⟩
  rcases hStaged.of_mem hFile with ⟨hEnds, hFits, hCheck⟩
  refine ⟨hEnds, hFits, fun hNul => ?_⟩
  have hInside := h.inside file.1 (List.mem_map_of_mem hFile)
  rcases Path.exists_stem h.staging_ne_empty with ⟨stem, -, hStem⟩
  apply (checkPath_eq_ok_iff.mp hCheck).1
  rw [hStem file.1 hInside.relative]
  simp [hNul]

end HasStaging

------------------------------------------------------------
-- A Set That Has Been Written
------------------------------------------------------------

/- Paths that lead to different places have different places. -/
theorem distinctPlaces_of_plain
    {set : ArtifactSet}
    (hInside : ∀ path ∈ set.paths, Path.StaysInside path)
    (hPlain : ∀ path ∈ set.paths, ∀ other ∈ set.paths,
      Path.plain path = Path.plain other → path = other) :
    DistinctPlaces set.files := by
  have hNodup : set.files.Pairwise
      (fun file other => file.1 ≠ other.1) :=
    List.pairwise_map.mp set.distinct
  apply hNodup.imp_of_mem
  intro file other hFile hOther hNe hSame
  have hPath := List.mem_map_of_mem (f := Prod.fst) hFile
  have hOtherPath := List.mem_map_of_mem (f := Prod.fst) hOther
  apply hNe
  apply hPlain _ hPath _ hOtherPath
  rw [plain_of_staysInside (hInside _ hPath),
    plain_of_staysInside (hInside _ hOtherPath), hSame]

namespace ArtifactSet

variable {set : ArtifactSet} {root : String} {fs fs' : FileSystem}
variable {written : List String}

/- A set that has been written had a staging directory. -/
theorem exists_hasStaging_of_ok
    (hFiles : set.files ≠ [])
    (h : set.writeAll root fs = .ok written fs') :
    ∃ grown base name published,
      HasStaging set root fs grown base name ∧
      set.publish root (Path.join (stagingParent root) name)
        (grown.withStaging base name) = .ok () published ∧
      written = set.places root ∧
      fs' = removeAt (Path.join (stagingParent root) name)
        published := by
  rcases set.writeAll_cases root fs with ⟨e, -, hRun⟩ |
    ⟨hEmpty, -⟩ | ⟨-, e, hRun⟩ | ⟨grown, base, name, hStaging, hRun⟩
  · rw [hRun] at h
    simp at h
  · exact absurd (List.isEmpty_iff.mp hEmpty) hFiles
  · rw [hRun] at h
    simp at h
  · rw [hRun, publishAndClear_eq_ok_iff] at h
    rcases h with ⟨hWritten, published, hPublish, hEnd⟩
    exact ⟨grown, base, name, published, hStaging, hPublish, hWritten,
      hEnd⟩

/- The answer is where the files of the set are written, in order. -/
theorem eq_places_of_ok
    (h : set.writeAll root fs = .ok written fs') :
    written = set.places root := by
  by_cases hFiles : set.files = []
  · rw [writeAll_of_files_eq_nil hFiles] at h
    rcases EStateM.Result.ok.inj h with ⟨rfl, -⟩
    simp [places, paths, Keyed.keys, hFiles]
  · rcases exists_hasStaging_of_ok hFiles h with
      ⟨-, -, -, -, -, -, hWritten, -⟩
    exact hWritten

/- What is where once a set of files has been written. -/
theorem entryAt?_writeAll
    (hLinks : NoLinks fs)
    (hForward : Path.Forward root)
    (hFiles : set.files ≠ [])
    (hDistinct : DistinctPlaces set.files)
    (h : set.writeAll root fs = .ok written fs')
    (loc : Location) :
    fs'.entryAt? loc =
      overlay (destination fs.home root) set.files fs.entryAt? loc := by
  rcases exists_hasStaging_of_ok hFiles h with
    ⟨grown, base, name, published, hStaging, hPublish, -, rfl⟩
  have hClear := hStaging.entryAt?_publishAndClear hLinks loc
  rw [final_publishAndClear, Writing.final_of_ok hPublish] at hClear
  rw [hClear]
  split
  · rename_i hLoc
    exact (hStaging.overlay_of_isPrefix hLoc).symm
  · rename_i hLoc
    have hGrows := createStagingParent_grows hLinks hForward
    rw [Writing.final_of_ok hStaging.parent] at hGrows
    rw [hStaging.entryAt?_published hLinks hFiles hDistinct hPublish hLoc,
      overlay_of_grows hGrows hFiles]

theorem entryAt?_writeAll_file
    (hLinks : NoLinks fs)
    (hForward : Path.Forward root)
    (hFiles : set.files ≠ [])
    (hDistinct : DistinctPlaces set.files)
    (h : set.writeAll root fs = .ok written fs')
    {file : String × String}
    (hFile : file ∈ set.files) :
    fs'.entryAt? (destination fs.home root ++ Path.names file.1) =
      some (.file file.2.toUTF8) := by
  rw [entryAt?_writeAll hLinks hForward hFiles hDistinct h, overlay,
    lastAt_of_distinct hDistinct hFile]

/-
  Above a file that has been written there are directories, and
  there was nothing else before.
-/
theorem directory_above_writeAll
    (hLinks : NoLinks fs)
    (hForward : Path.Forward root)
    (hFiles : set.files ≠ [])
    (hDistinct : DistinctPlaces set.files)
    (h : set.writeAll root fs = .ok written fs')
    {file : String × String}
    (hFile : file ∈ set.files)
    {loc : Location}
    (hLoc : loc <+: destination fs.home root ++ Path.names file.1)
    (hNe : loc ≠ destination fs.home root ++ Path.names file.1) :
    fs'.entryAt? loc = some .directory ∧
      (fs.entryAt? loc = none ∨ fs.entryAt? loc = some .directory) := by
  have hPlaced :=
    entryAt?_writeAll_file hLinks hForward hFiles hDistinct h hFile
  have hDirectory := @directory_of_isPrefix fs' _ _ hLoc hNe
    (by simp [hPlaced])
  refine ⟨hDirectory, ?_⟩
  rw [entryAt?_writeAll hLinks hForward hFiles hDistinct h, overlay]
    at hDirectory
  split at hDirectory
  · simp at hDirectory
  · split at hDirectory
    · rename_i hNew
      exact Or.inl hNew.1
    · exact Or.inr hDirectory

end ArtifactSet

end Bindery

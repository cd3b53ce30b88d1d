import Bindery.Proofs.Artifact.Transfer

/-
  This file says what moving staged files into place does, one
  file after the other.  There are no links, so that every path
  leads where its names say.

  Key definitions include:
    * `IsMoving`
    * `SparesFiles`

  Key theorems include:
    * `moveFiles_spares`
    * `moveFiles_eq_ok`
    * `moveFiles_succeeds`
-/

namespace Bindery

open FileSystem
open Bindery.Path (Step EndsIn)

------------------------------------------------------------
-- Moving One File
------------------------------------------------------------

/-
  Files lie at some paths below a source and are being moved to
  a target that is not below the source.
-/
structure IsMoving
    (fs : FileSystem)
    (staging root : String)
    (source target : Location)
    (paths : List String) : Prop where
  noLinks : NoLinks fs
  stagingNe : staging ≠ ""
  rootNe : root ≠ ""
  staged : fs.LeadsTo staging source
  target_eq : target = destination fs.home root
  inside : ∀ path ∈ paths, Path.StaysInside path
  noDirectory : ∀ path ∈ paths,
    fs.entryAt? (source ++ Path.names path) ≠ some .directory
  apart : ∀ path ∈ paths, ∀ loc,
    OnWay (startOf fs.home root)
      (Path.names root ++ Path.names path) loc → ¬ source <+: loc

namespace IsMoving

variable {fs fs' : FileSystem} {staging root path : String}
variable {source target : Location} {paths : List String}

/- Where a staged file lies and where it is to be moved. -/
theorem destinations
    (h : IsMoving fs staging root source target paths)
    (hPath : path ∈ paths) :
    destination fs.home (Path.join staging path) =
        source ++ Path.names path ∧
      destination fs.home (Path.join root path) =
        target ++ Path.names path := by
  have hInside := h.inside path hPath
  rw [destination_join h.stagingNe hInside.relative hInside.forward,
    destination_join h.rootNe hInside.relative hInside.forward,
    ← h.staged.eq_destination h.noLinks, ← h.target_eq]
  exact ⟨rfl, rfl⟩

/- What is on the way to a path is not below the source. -/
theorem not_prefix_of_onWay
    (h : IsMoving fs staging root source target paths)
    (hPath : path ∈ paths)
    {loc : Location}
    (hOn : OnWay (startOf fs.home (Path.join root path))
      (Path.names (Path.join root path)) loc) :
    ¬ source <+: loc := by
  have hInside := h.inside path hPath
  rw [startOf_eq fs (Path.isAbsolute_join h.rootNe hInside.relative),
    Path.names_join h.rootNe hInside.relative] at hOn
  exact h.apart path hPath loc hOn

theorem not_prefix_target
    (h : IsMoving fs staging root source target paths)
    (hPath : path ∈ paths) :
    ¬ source <+: target ++ Path.names path := by
  rw [← (h.destinations hPath).2]
  exact h.not_prefix_of_onWay hPath (onWay_destination _ _)

/- A change that adds no links and takes away no directories. -/
theorem mono
    (h : IsMoving fs staging root source target paths)
    (hLinks : NoLinks fs')
    (hKeeps : Keeps fs fs')
    (hNoDirectory : ∀ path ∈ paths,
      fs'.entryAt? (source ++ Path.names path) ≠ some .directory) :
    IsMoving fs' staging root source target paths where
  noLinks := hLinks
  stagingNe := h.stagingNe
  rootNe := h.rootNe
  staged := h.staged.mono hKeeps
  target_eq := by rw [hKeeps.home, h.target_eq]
  inside := h.inside
  noDirectory := hNoDirectory
  apart := by
    rw [hKeeps.home]
    exact h.apart

/- New directories on the way to the target leave all as it is. -/
theorem grows
    (h : IsMoving fs staging root source target paths)
    {allowed : Location → Prop}
    (hGrows : Grows allowed fs fs')
    (hAllowed : ∀ loc, allowed loc → ¬ source <+: loc) :
    IsMoving fs' staging root source target paths ∧
      ∀ loc, source <+: loc → fs'.entryAt? loc = fs.entryAt? loc := by
  have hBelow : ∀ loc, source <+: loc →
      fs'.entryAt? loc = fs.entryAt? loc := by
    intro loc hLoc
    cases hOld : fs.entryAt? loc with
    | some e => exact hGrows.kept loc e hOld
    | none =>
        by_contra hSome
        exact hAllowed loc (hGrows.new loc hOld hSome).2 hLoc
  refine ⟨h.mono (h.noLinks.grows hGrows) hGrows.keeps ?_, hBelow⟩
  intro path hPath
  rw [hBelow _ (List.prefix_append _ _)]
  exact h.noDirectory path hPath

/-
  A move that succeeds has found a file and no directory in its
  place; nothing else changes.
-/
theorem rename_eq_ok
    (h : IsMoving fs staging root source target paths)
    (hPath : path ∈ paths)
    (hRename : fs.rename (Path.join staging path)
      (Path.join root path) = .ok fs') :
    ∃ content dir name,
      fs.entryAt? (source ++ Path.names path) = some (.file content) ∧
      fs.LiesIn (Path.join root path) dir name ∧
      fs.entryAt? (target ++ Path.names path) ≠ some .directory ∧
      checkPath (Path.join root path) = .ok () ∧
      fs'.home = fs.home ∧
      ∀ loc, fs'.entryAt? loc =
        if loc = target ++ Path.names path then some (.file content)
        else if loc = source ++ Path.names path then none
        else fs.entryAt? loc := by
  rcases FileSystem.rename_eq_ok hRename with
    ⟨oldDir, oldName, dir, name, hOld, hNew, hCheck, hCase⟩
  rcases h.destinations hPath with ⟨hSource, hTarget⟩
  rw [← hOld.eq_destination h.noLinks] at hSource
  rw [← hNew.eq_destination h.noLinks] at hTarget
  have hApart : ¬ source ++ Path.names path <+:
      target ++ Path.names path := fun hPrefix =>
    h.not_prefix_target hPath
      ((List.prefix_append _ _).trans hPrefix)
  rcases hCase with ⟨hSame, -⟩ | ⟨node, hMoved, rfl⟩
  · rw [hSource, hTarget] at hSame
    exact absurd (hSame ▸ List.prefix_refl _) hApart
  have hFound := hMoved.found
  have hEntry : fs.entryAt? (source ++ Path.names path) =
      some node.entry := by
    rw [← hSource, entryAt?_eq_map_at?, hFound]
    rfl
  cases node with
  | directory entries => exact absurd hEntry (h.noDirectory path hPath)
  | link other => exact absurd hEntry (h.noLinks _ _)
  | file content =>
      have hPlace : fs.entryAt? (dir ++ [name]) ≠ some .directory := by
        intro hDirectory
        rcases entryAt?_eq_directory_iff.mp hDirectory with
          ⟨entries, hAt⟩
        have hAllowed := hMoved.allowed
        simp [hAt, checkReplacement] at hAllowed
      refine ⟨content, dir, name, hEntry, hNew, hTarget ▸ hPlace,
        hCheck, rfl, ?_⟩
      have hMove := entryAt?_moveFile hNew.directory
        (by rw [hSource]; exact hEntry)
        (by rw [hSource, hTarget]; exact hApart) hPlace
      intro loc
      rw [hMove, hSource, hTarget]

/- A move takes away no directory and adds no link. -/
theorem rename_keeps
    (h : IsMoving fs staging root source target paths)
    (hPath : path ∈ paths)
    (hRename : fs.rename (Path.join staging path)
      (Path.join root path) = .ok fs') :
    NoLinks fs' ∧ Keeps fs fs' := by
  rcases h.rename_eq_ok hPath hRename with
    ⟨content, dir, name, hFile, -, hPlace, -, hHome, hEntries⟩
  refine ⟨fun loc other => ?_, hHome, fun loc hLoc => ?_,
    fun loc other hLoc => absurd hLoc (h.noLinks loc other)⟩
  · rw [hEntries]
    split
    · simp
    · split
      · simp
      · exact h.noLinks loc other
  · rw [hEntries, if_neg, if_neg, hLoc]
    · rintro rfl
      simp [hFile] at hLoc
    · rintro rfl
      exact hPlace hLoc

/- After a move all files that are left can still be moved. -/
theorem rename
    (h : IsMoving fs staging root source target paths)
    (hPath : path ∈ paths)
    (hRename : fs.rename (Path.join staging path)
      (Path.join root path) = .ok fs') :
    IsMoving fs' staging root source target paths := by
  rcases h.rename_eq_ok hPath hRename with
    ⟨content, dir, name, -, -, -, -, -, hEntries⟩
  rcases h.rename_keeps hPath hRename with ⟨hLinks, hKeeps⟩
  apply h.mono hLinks hKeeps
  intro other hOther
  rw [hEntries]
  split
  · simp
  · split
    · simp
    · exact h.noDirectory other hOther

/- Creating the directory of a file leaves staged files alone. -/
theorem grows_createParent
    (h : IsMoving fs staging root source target paths)
    (hPath : path ∈ paths) :
    IsMoving (Writing.final (createParent (Path.join root path)) fs)
        staging root source target paths ∧
      ∀ loc, source <+: loc →
        (Writing.final (createParent (Path.join root path)) fs).entryAt?
          loc = fs.entryAt? loc :=
  h.grows (createParent_grows_onWay h.noLinks _)
    fun _ hOn => h.not_prefix_of_onWay hPath hOn

/- The two steps of a move that succeeds. -/
theorem exists_middle
    (h : IsMoving fs staging root source target paths)
    (hPath : path ∈ paths)
    (hMove : moveFile staging root path fs = .ok () fs') :
    ∃ middle,
      createParent (Path.join root path) fs = .ok () middle ∧
      Grows (EndsIn (Path.names (Path.join root path))) fs middle ∧
      IsMoving middle staging root source target paths ∧
      (∀ loc, source <+: loc →
        middle.entryAt? loc = fs.entryAt? loc) ∧
      middle.rename (Path.join staging path) (Path.join root path) =
        .ok fs' := by
  rcases Writing.bind_eq_ok_iff.mp hMove with
    ⟨⟨⟩, middle, hCreate, hRename⟩
  have hGrows := createParent_grows (Path.join root path) fs
  have hMiddle := h.grows_createParent hPath
  rw [Writing.final_of_ok hCreate] at hGrows hMiddle
  exact ⟨middle, hCreate, hGrows, hMiddle.1, hMiddle.2,
    Writing.perform_eq_ok_iff.mp hRename⟩

/-
  In an output directory that is there, the directory of the
  file has been created below it between the two steps.
-/
theorem exists_middle_below
    (h : IsMoving fs staging root source target paths)
    (hRoot : fs.LeadsTo root target)
    (hPath : path ∈ paths)
    (hMove : moveFile staging root path fs = .ok () fs') :
    ∃ middle init name,
      IsMoving middle staging root source target paths ∧
      (∀ loc, source <+: loc →
        middle.entryAt? loc = fs.entryAt? loc) ∧
      middle.rename (Path.join staging path) (Path.join root path) =
        .ok fs' ∧
      Path.names path = init ++ [name] ∧
      (∀ n ∈ Path.names path, FitsName n) ∧
      Grows (· <+: target ++ init) fs middle ∧
      middle.entryAt? (target ++ init) = some .directory := by
  rcases h.exists_middle hPath hMove with
    ⟨middle, hCreate, hGrows, hMiddle, hSame, hRename⟩
  have hInside := h.inside path hPath
  rcases hMiddle.rename_eq_ok hPath hRename with
    ⟨-, dir, name, -, hLies, -⟩
  rcases liesIn_join (hRoot.mono hGrows.keeps)
      (hMiddle.noLinks.below target) h.rootNe hInside hLies with
    ⟨init, hNames, rfl, -, hFits⟩
  have hBelow :=
    Path.below_join h.rootNe hInside.relative hInside.forward
  rw [hNames] at hBelow
  rcases createParent_below hRoot (h.noLinks.below target) hBelow
      hCreate with
    ⟨hGrowsBelow, hDirectory⟩
  exact ⟨middle, init, name, hMiddle, hSame, hRename, hNames, hFits,
    hGrowsBelow, hDirectory⟩

end IsMoving

------------------------------------------------------------
-- Files That Are Spared
------------------------------------------------------------

/- Outside of two locations all regular files are as before. -/
structure SparesFiles
    (source target : Location)
    (fs fs' : FileSystem) : Prop where
  home : fs'.home = fs.home
  same : ∀ loc, ¬ source <+: loc → ¬ target <+: loc →
    ∀ content, fs'.entryAt? loc = some (.file content) ↔
      fs.entryAt? loc = some (.file content)

namespace SparesFiles

variable {source target : Location} {fs fs' : FileSystem}

theorem refl (source target : Location) (fs : FileSystem) :
    SparesFiles source target fs fs :=
  ⟨rfl, fun _ _ _ _ => Iff.rfl⟩

theorem trans
    {fs₁ fs₂ fs₃ : FileSystem}
    (h : SparesFiles source target fs₁ fs₂)
    (h' : SparesFiles source target fs₂ fs₃) :
    SparesFiles source target fs₁ fs₃ where
  home := h'.home.trans h.home
  same loc hSource hTarget content :=
    (h'.same loc hSource hTarget content).trans
      (h.same loc hSource hTarget content)

theorem of_grows
    (source target : Location)
    {allowed : Location → Prop}
    (h : Grows allowed fs fs') :
    SparesFiles source target fs fs' where
  home := h.home
  same loc _ _ content := h.entryAt?_eq_file_iff loc content

end SparesFiles

section Spares

variable {fs : FileSystem} {staging root : String}
variable {source target : Location} {paths : List String}

/- Moving one file touches no file outside of its two places. -/
theorem IsMoving.moveFile_spares
    {path : String}
    (h : IsMoving fs staging root source target paths)
    (hPath : path ∈ paths) :
    IsMoving (Writing.final (moveFile staging root path) fs)
        staging root source target paths ∧
      SparesFiles source target fs
        (Writing.final (moveFile staging root path) fs) := by
  have hGrows := createParent_grows (Path.join root path) fs
  apply Writing.final_bind (P := fun after =>
    IsMoving after staging root source target paths ∧
      SparesFiles source target fs after)
  · exact ⟨(h.grows_createParent hPath).1,
      SparesFiles.of_grows source target hGrows⟩
  · rintro - middle - ⟨hMiddle, hSpares⟩
    apply Writing.final_perform (P := fun after =>
      IsMoving after staging root source target paths ∧
        SparesFiles source target fs after) ⟨hMiddle, hSpares⟩
    intro after hRename
    rcases hMiddle.rename_eq_ok hPath hRename with
      ⟨_, _, _, -, -, -, -, hHome, hEntries⟩
    refine ⟨hMiddle.rename hPath hRename, hSpares.trans ⟨hHome, ?_⟩⟩
    intro loc hSource hTarget content
    rw [hEntries, if_neg, if_neg]
    · rintro rfl
      exact hSource (List.prefix_append _ _)
    · rintro rfl
      exact hTarget (List.prefix_append _ _)

/- Nor does moving any number of files, however that ends. -/
theorem moveFiles_spares
    {rest : List String}
    (h : IsMoving fs staging root source target paths)
    (hRest : ∀ path ∈ rest, path ∈ paths) :
    IsMoving (Writing.final (moveFiles staging root rest) fs)
        staging root source target paths ∧
      SparesFiles source target fs
        (Writing.final (moveFiles staging root rest) fs) := by
  induction rest generalizing fs with
  | nil => exact ⟨h, SparesFiles.refl _ _ _⟩
  | cons path others ih =>
      rw [moveFiles_cons]
      apply Writing.final_bind (P := fun after =>
        IsMoving after staging root source target paths ∧
          SparesFiles source target fs after)
      · exact h.moveFile_spares (hRest path (by simp))
      · rintro - middle - ⟨hMoved, hSpares⟩
        rcases ih hMoved fun other hOther =>
            hRest other (by simp [hOther]) with
          ⟨hAll, hAllSpares⟩
        exact ⟨hAll, hSpares.trans hAllSpares⟩

end Spares

------------------------------------------------------------
-- Files in Their Places
------------------------------------------------------------

section Places

variable {fs fs' : FileSystem} {staging root path content : String}
variable {source target : Location} {paths : List String}

/- What is where after one file has been moved into a directory. -/
theorem IsMoving.moveFile_eq_ok
    (h : IsMoving fs staging root source target paths)
    (hRoot : fs.LeadsTo root target)
    (hPath : path ∈ paths)
    (hFile : fs.entryAt? (source ++ Path.names path) =
      some (.file content.toUTF8))
    (hMove : moveFile staging root path fs = .ok () fs') :
    IsMoving fs' staging root source target paths ∧
      fs'.LeadsTo root target ∧
      checkPath (Path.join root path) = .ok () ∧
      (∀ loc, ¬ source <+: loc → fs'.entryAt? loc =
        overlay target [(path, content)] fs.entryAt? loc) ∧
      ∀ loc, source <+: loc → fs'.entryAt? loc =
        if loc = source ++ Path.names path then none
        else fs.entryAt? loc := by
  rcases h.exists_middle_below hRoot hPath hMove with
    ⟨middle, init, name, hMiddle, hSame, hRename, hNames, -, hGrows,
      hDirectory⟩
  rcases hMiddle.rename_eq_ok hPath hRename with
    ⟨found, -, -, hFound, -, -, hCheck, -, hEntries⟩
  have hKeeps := (hMiddle.rename_keeps hPath hRename).2
  rw [hSame _ (List.prefix_append _ _), hFile] at hFound
  have hEq : content.toUTF8 = found := by simpa using hFound
  subst hEq
  refine ⟨hMiddle.rename hPath hRename,
    hRoot.mono (hGrows.keeps.trans hKeeps), hCheck,
    fun loc hLoc => ?_, fun loc hLoc => ?_⟩
  · have hSource : loc ≠ source ++ Path.names path := by
      rintro rfl
      exact hLoc (List.prefix_append _ _)
    rw [hEntries, if_neg hSource,
      overlay_of_parent hNames hGrows hDirectory]
  · have hTarget : loc ≠ target ++ Path.names path := by
      rintro rfl
      exact h.not_prefix_target hPath hLoc
    rw [hEntries, if_neg hTarget, hSame loc hLoc]

/- A file that is moved was there, and its place was free. -/
theorem IsMoving.isWritable_of_moveFile
    (h : IsMoving fs staging root source target paths)
    (hRoot : fs.LeadsTo root target)
    (hPath : path ∈ paths)
    (hEnds : Path.EndsInName path)
    (hMove : moveFile staging root path fs = .ok () fs') :
    fs.entryAt? (source ++ Path.names path) ≠ none ∧
      IsWritable fs root target path := by
  rcases h.exists_middle_below hRoot hPath hMove with
    ⟨middle, init, name, hMiddle, hSame, hRename, hNames, hFits, hGrows,
      hDirectory⟩
  rcases hMiddle.rename_eq_ok hPath hRename with
    ⟨content, -, -, hFile, -, hPlace, hCheck, -, -⟩
  refine ⟨?_, hEnds, hFits, hCheck, ?_⟩
  · rw [← hSame _ (List.prefix_append _ _), hFile]
    simp
  · rw [hNames, ← List.append_assoc] at hPlace
    rw [hNames, isFree_snoc_iff hRoot.directory]
    exact ⟨hGrows.isOpen hDirectory,
      fun hOld => hPlace (hGrows.kept _ _ hOld)⟩

/- A file is moved only to an output directory that is one. -/
theorem IsMoving.directory_of_moveFile
    (h : IsMoving fs staging root source target paths)
    (hPath : path ∈ paths)
    (hThere : fs.entryAt? target ≠ none)
    (hMove : moveFile staging root path fs = .ok () fs') :
    fs.entryAt? target = some .directory := by
  have hInside := h.inside path hPath
  rcases h.exists_middle hPath hMove with
    ⟨middle, -, hGrows, hMiddle, -, hRename⟩
  rcases hMiddle.rename_eq_ok hPath hRename with
    ⟨-, dir, name, -, hLies, -⟩
  rcases hLies.way with ⟨init, hSteps, hLeads⟩
  have hInit : init =
      Path.steps root ++ (Path.steps path).dropLast := by
    have hDrop := congrArg List.dropLast hSteps
    rw [Path.steps_join h.rootNe hInside.relative,
      List.dropLast_append_of_ne_nil
        (Path.steps_ne_nil hInside.ne_empty hInside.relative),
      List.dropLast_concat] at hDrop
    exact hDrop.symm
  rw [hInit, startOf_eq middle
    (Path.isAbsolute_join h.rootNe hInside.relative)] at hLeads
  rcases hLeads.exists_of_append with ⟨loc, hRoot⟩
  have hLoc := (leadsTo_iff_steps.mpr hRoot).eq_destination
    hMiddle.noLinks
  rw [← hMiddle.target_eq] at hLoc
  have hDirectory := hRoot.directory
  rw [hLoc] at hDirectory
  rcases Option.ne_none_iff_exists'.mp hThere with ⟨e, hOld⟩
  rw [hOld, ← hGrows.kept _ e hOld, hDirectory]

/- A file that is not moved leaves new directories at most. -/
theorem final_of_moveFile_error
    {e : WriteError}
    (h : moveFile staging root path fs = .error e fs') :
    fs' = Writing.final (createParent (Path.join root path)) fs := by
  rcases Writing.bind_eq_error_iff.mp h with hCreate |
    ⟨⟨⟩, middle, hCreate, hRename⟩
  · rw [Writing.final_of_error hCreate]
  · rcases Writing.perform_eq_error_iff.mp hRename with ⟨-, -, -, rfl⟩
    rw [Writing.final_of_ok hCreate]

/- Files are moved below an output directory that is there. -/
theorem IsMoving.movesBelow
    (h : IsMoving fs staging root source target paths)
    (hRoot : fs.LeadsTo root target) :
    MovesBelow fs staging root source target paths where
  stagingNe := h.stagingNe
  rootNe := h.rootNe
  staged := h.staged
  rooted := hRoot
  sourceLinks := h.noLinks.below source
  targetLinks := h.noLinks.below target
  inside := h.inside
  apart _ hPath := h.not_prefix_target hPath

variable {files : List (String × String)}

/- What is where after files have been moved into a directory. -/
theorem moveFiles_eq_ok
    (h : IsMoving fs staging root source target paths)
    (hRoot : fs.LeadsTo root target)
    (hPaths : ∀ file ∈ files, file.1 ∈ paths)
    (hFiles : ∀ file ∈ files,
      fs.entryAt? (source ++ Path.names file.1) =
        some (.file file.2.toUTF8))
    (hDistinct : DistinctPlaces files)
    (hMove : moveFiles staging root (files.map Prod.fst) fs =
      .ok () fs') :
    IsMoving fs' staging root source target paths ∧
      fs'.LeadsTo root target ∧
      (∀ file ∈ files, checkPath (Path.join root file.1) = .ok ()) ∧
      HasMoved source target files fs fs' := by
  induction files generalizing fs with
  | nil =>
      have hEq : fs = fs' := by
        simpa [moveFiles, pure, EStateM.pure] using hMove
      subst hEq
      exact ⟨h, hRoot, by simp, HasMoved.nil _ _ _⟩
  | cons file rest ih =>
      rcases file with ⟨path, content⟩
      rw [List.map_cons, moveFiles_cons] at hMove
      rcases Writing.bind_eq_ok_iff.mp hMove with
        ⟨⟨⟩, middle, hOne, hRest⟩
      rcases
          h.moveFile_eq_ok hRoot (hPaths (path, content) (by simp))
            (hFiles (path, content) (by simp)) hOne with
        ⟨hMiddle, hMiddleRoot, hCheck, hPlaced, hLeft⟩
      rw [DistinctPlaces, List.pairwise_cons] at hDistinct
      rcases hDistinct with ⟨hApart, hOthers⟩
      have hKept : ∀ other ∈ rest,
          middle.entryAt? (source ++ Path.names other.1) =
            fs.entryAt? (source ++ Path.names other.1) := by
        intro other hOther
        rw [hLeft _ (List.prefix_append _ _), if_neg]
        simpa using (hApart other hOther).symm
      rcases ih hMiddle
          hMiddleRoot
          (fun other hOther => hPaths other (by simp [hOther]))
          (fun other hOther => by
            rw [hKept other hOther, hFiles other (by simp [hOther])])
          hOthers hRest with
        ⟨hAfter, hAfterRoot, hChecks, hMoved⟩
      refine ⟨hAfter, hAfterRoot, ?_,
        HasMoved.cons (fun other hOther => hApart other hOther) hPlaced
          hLeft hMoved⟩
      rw [List.forall_mem_cons]
      exact ⟨hCheck, hChecks⟩

/- Staged files can be moved to free places apart from each other. -/
theorem moveFiles_succeeds
    (h : IsMoving fs staging root source target paths)
    (hRoot : fs.LeadsTo root target)
    (hPaths : ∀ file ∈ files, file.1 ∈ paths)
    (hFiles : ∀ file ∈ files,
      fs.entryAt? (source ++ Path.names file.1) =
        some (.file file.2.toUTF8))
    (hDistinct : DistinctPlaces files)
    (hApart : NoneAbove (files.map Prod.fst))
    (hOldChecks : ∀ file ∈ files,
      checkPath (Path.join staging file.1) = .ok ())
    (hWritable : ∀ file ∈ files, IsWritable fs root target file.1) :
    ∃ fs', moveFiles staging root (files.map Prod.fst) fs =
      .ok () fs' := by
  rcases (h.movesBelow hRoot).moveFiles_succeeds hPaths hFiles hDistinct
      hApart hOldChecks hWritable with
    ⟨fs', hMove, -⟩
  exact ⟨fs', hMove⟩

end Places

------------------------------------------------------------
-- Moving the Whole Directory
------------------------------------------------------------

/-
  A directory has been moved to another place, where nothing or
  an empty directory was.
-/
structure HasBecome
    (source target : Location)
    (fs fs' : FileSystem) : Prop where
  home : fs'.home = fs.home
  vacant : ∀ below, fs.entryAt? (target ++ below) = none ∨
    below = [] ∧ fs.entryAt? target = some .directory
  moved : ∀ below,
    fs'.entryAt? (target ++ below) = fs.entryAt? (source ++ below)
  gone : ∀ loc, source <+: loc → fs'.entryAt? loc = none
  kept : ∀ loc, ¬ source <+: loc → ¬ target <+: loc →
    fs'.entryAt? loc = fs.entryAt? loc

/- What is at the place of a directory that may be replaced. -/
theorem vacant_of_checkReplacement
    {fs : FileSystem}
    {target : Location}
    {entries : List (String × Node)}
    (h : checkReplacement (.directory entries) (fs.at? target) =
      .ok ())
    (below : Location) :
    fs.entryAt? (target ++ below) = none ∨
      below = [] ∧ fs.entryAt? target = some .directory := by
  unfold FileSystem.at? at h
  rw [FileSystem.entryAt?, FileSystem.entryAt?, Node.entryAt?,
    Node.at?_append]
  cases hAt : fs.root.at? target with
  | none => exact Or.inl rfl
  | some node =>
      rw [hAt] at h
      cases node with
      | file content => simp [checkReplacement] at h
      | link other => simp [checkReplacement] at h
      | directory children =>
          cases children with
          | cons first rest => simp [checkReplacement] at h
          | nil =>
              cases below with
              | nil =>
                  right
                  simp [Node.entryAt?, hAt, Node.entry]
              | cons name rest => simp [Node.at?, Keyed.get?]

theorem rename_hasBecome
    {fs fs' : FileSystem}
    {staging root : String}
    {source target : Location}
    (hLinks : NoLinks fs)
    (hStaged : fs.LeadsTo staging source)
    (hTarget : target = destination fs.home root)
    (hApart : ¬ source <+: target)
    (hRename : fs.rename staging root = .ok fs') :
    (∃ dir name, fs.LiesIn root dir name ∧ target = dir ++ [name]) ∧
      HasBecome source target fs fs' := by
  rcases FileSystem.rename_eq_ok hRename with
    ⟨oldDir, oldName, dir, name, hOld, hNew, -, hCase⟩
  have hSource : oldDir ++ [oldName] = source :=
    (hOld.eq_destination hLinks).trans
      (hStaged.eq_destination hLinks).symm
  have hPlace : dir ++ [name] = target :=
    (hNew.eq_destination hLinks).trans hTarget.symm
  refine ⟨⟨dir, name, hNew, hPlace.symm⟩, ?_⟩
  rcases hCase with ⟨hSame, -⟩ | ⟨node, hMoved, hPut⟩
  · rw [hSource, hPlace] at hSame
    exact absurd (hSame ▸ List.prefix_refl _) hApart
  have hEntries : ∀ loc, fs'.entryAt? loc =
      if target <+: loc then
        fs.entryAt? (source ++ loc.drop target.length)
      else if source <+: loc then none else fs.entryAt? loc := by
    intro loc
    rw [hPut, entryAt?_moveNode hNew.directory hMoved.found hMoved.apart,
      hSource, hPlace, ← hPlace, List.length_append,
      List.length_singleton]
  rcases entryAt?_eq_directory_iff.mp hStaged.directory with
    ⟨entries, hNode⟩
  have hFound := hMoved.found
  rw [hSource, hNode] at hFound
  have hEq : .directory entries = node := by simpa using hFound
  subst hEq
  have hAllowed := hMoved.allowed
  have hNotAbove := hMoved.notAbove
  rw [hPlace] at hAllowed
  rw [hSource, hPlace] at hNotAbove
  refine ⟨by rw [hPut]; rfl, vacant_of_checkReplacement hAllowed,
    fun below => ?_, fun loc hLoc => ?_, fun loc hLoc hNot => ?_⟩
  · rw [hEntries, if_pos (List.prefix_append _ _), List.drop_left]
  · have hNot : ¬ target <+: loc := by
      intro hBelow
      rcases List.prefix_or_prefix_of_prefix hLoc hBelow with hIn | hOver
      · exact hApart hIn
      · exact hNotAbove hOver
    rw [hEntries, if_neg hNot, if_pos hLoc]
  · rw [hEntries, if_neg hNot, if_neg hLoc]

theorem HasBecome.noLinks
    {source target : Location}
    {fs fs' : FileSystem}
    (h : HasBecome source target fs fs')
    (hLinks : NoLinks fs) :
    NoLinks fs' := by
  intro loc other
  by_cases hTarget : target <+: loc
  · rcases hTarget with ⟨below, rfl⟩
    rw [h.moved]
    exact hLinks _ other
  · by_cases hSource : source <+: loc
    · rw [h.gone loc hSource]
      simp
    · rw [h.kept loc hSource hTarget]
      exact hLinks loc other

end Bindery

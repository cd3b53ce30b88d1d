import Bindery.Proofs.Artifact.Filling

/-
  This file says what moving files from one directory to
  another does when there are no links below the two.  Files
  that lie in the one can be moved to places that are free in
  the other, and nothing else changes.

  Key definitions include:
    * `moveFile`
    * `MovesBelow`
    * `HasMoved`

  Key theorems include:
    * `MovesBelow.moveFile_eq`
    * `MovesBelow.moveFile_succeeds`
    * `MovesBelow.moveFiles_succeeds`
-/

namespace Bindery

open FileSystem
open Bindery.Path (Step)

------------------------------------------------------------
-- Moving One File
------------------------------------------------------------

/- Move one file from one directory to another. -/
def moveFile (staging root path : String) : Writing Unit := do
  createParent (Path.join root path)
  Writing.perform (.fileNotMoved (Path.join root path))
    (·.rename (Path.join staging path) (Path.join root path))

theorem moveFiles_cons
    (staging root path : String)
    (rest : List String) :
    moveFiles staging root (path :: rest) =
      (moveFile staging root path >>= fun _ =>
        moveFiles staging root rest) := by
  rw [moveFiles, moveFile, bind_assoc]

/-
  Files are moved from a source to a target, both of them
  directories without links below them, and no place that they
  are moved to is below the source.
-/
structure MovesBelow
    (fs : FileSystem)
    (staging root : String)
    (source target : Location)
    (paths : List String) : Prop where
  stagingNe : staging ≠ ""
  rootNe : root ≠ ""
  staged : fs.LeadsTo staging source
  rooted : fs.LeadsTo root target
  sourceLinks : NoLinksBelow fs source
  targetLinks : NoLinksBelow fs target
  inside : ∀ path ∈ paths, Path.StaysInside path
  apart : ∀ path ∈ paths, ¬ source <+: target ++ Path.names path

/- A name that is there below a base is where its path says. -/
theorem liesIn_join_of_endsInName
    {fs : FileSystem}
    {base path name : String}
    {loc : Location}
    {init : List String}
    (hBase : fs.LeadsTo base loc)
    (hBaseNe : base ≠ "")
    (hInside : Path.StaysInside path)
    (hEnds : Path.EndsInName path)
    (hFits : ∀ n ∈ Path.names path, FitsName n)
    (hNames : Path.names path = init ++ [name])
    (hThere : fs.entryAt? (loc ++ init ++ [name]) ≠ none) :
    fs.LiesIn (Path.join base path) (loc ++ init) name := by
  rcases hEnds.way with ⟨way, other, hSteps⟩
  have hAll := (Path.names_of_steps hSteps).symm.trans hNames
  rcases List.append_inj' hAll rfl with ⟨rfl, hLast⟩
  have hEq : other = name := by simpa using hLast
  subst hEq
  rw [hNames] at hFits
  exact liesIn_of_entersBelow hBase
    (Path.entersBelow_join hBaseNe hInside.relative hInside.forward
      hSteps)
    hFits (directory_of_append [other] (by simp) hThere)

namespace MovesBelow

variable {fs fs' : FileSystem} {staging root path content : String}
variable {source target : Location} {paths : List String}

/- A change that adds no links and takes away no directories. -/
theorem mono
    (h : MovesBelow fs staging root source target paths)
    (hKeeps : Keeps fs fs')
    (hSource : NoLinksBelow fs' source)
    (hTarget : NoLinksBelow fs' target) :
    MovesBelow fs' staging root source target paths where
  stagingNe := h.stagingNe
  rootNe := h.rootNe
  staged := h.staged.mono hKeeps
  rooted := h.rooted.mono hKeeps
  sourceLinks := hSource
  targetLinks := hTarget
  inside := h.inside
  apart := h.apart

/- New directories on the way to a place leave the source as it is. -/
theorem grows
    {init : List String}
    {name : String}
    (h : MovesBelow fs staging root source target paths)
    (hPath : path ∈ paths)
    (hNames : Path.names path = init ++ [name])
    (hGrows : Grows (· <+: target ++ init) fs fs') :
    MovesBelow fs' staging root source target paths ∧
      ∀ loc, source <+: loc → fs'.entryAt? loc = fs.entryAt? loc := by
  refine ⟨h.mono hGrows.keeps (h.sourceLinks.grows hGrows)
    (h.targetLinks.grows hGrows), fun loc hLoc => ?_⟩
  cases hOld : fs.entryAt? loc with
  | some e => exact hGrows.kept loc e hOld
  | none =>
      by_contra hSome
      have hOn := (hGrows.new loc hOld hSome).2
      apply h.apart path hPath
      rw [hNames, ← List.append_assoc]
      exact (hLoc.trans hOn).trans (List.prefix_append _ _)

/-
  A file that has been put in the place of another file, and is
  gone from where it was, is no directory and no link.
-/
theorem moved
    {old new : Location}
    (h : MovesBelow fs staging root source target paths)
    (hHome : fs'.home = fs.home)
    (hOld : ∃ bytes, fs.entryAt? old = some (.file bytes))
    (hNew : fs.entryAt? new ≠ some .directory)
    (hBelow : target <+: new)
    (hEntries : ∀ loc, fs'.entryAt? loc =
      if loc = new then some (.file content.toUTF8)
      else if loc = old then none
      else fs.entryAt? loc) :
    MovesBelow fs' staging root source target paths := by
  rcases hOld with ⟨bytes, hFile⟩
  have hNoLinks : ∀ base, NoLinksBelow fs base →
      NoLinksBelow fs' base := by
    intro base hLinks below link
    rw [hEntries]
    split
    · simp
    · split
      · simp
      · exact hLinks below link
  have hKept : ∀ loc e, fs.entryAt? loc = some e → loc ≠ new →
      loc ≠ old → fs'.entryAt? loc = some e := by
    intro loc e hLoc hNotNew hNotOld
    rw [hEntries, if_neg hNotNew, if_neg hNotOld, hLoc]
  refine h.mono ⟨hHome, fun loc hLoc => ?_, fun loc link hLoc => ?_⟩
    (hNoLinks _ h.sourceLinks) (hNoLinks _ h.targetLinks)
  · apply hKept loc _ hLoc
    · rintro rfl
      exact hNew hLoc
    · rintro rfl
      simp [hFile] at hLoc
  · apply hKept loc _ hLoc
    · rintro rfl
      rcases hBelow with ⟨below, rfl⟩
      exact h.targetLinks below link hLoc
    · rintro rfl
      simp [hFile] at hLoc

/- A place is not below the file that is to be moved there. -/
theorem not_prefix_place
    {init : List String}
    {name : String}
    (h : MovesBelow fs staging root source target paths)
    (hPath : path ∈ paths)
    (hNames : Path.names path = init ++ [name]) :
    ¬ source ++ init ++ [name] <+: target ++ init ++ [name] := by
  intro hPrefix
  apply h.apart path hPath
  rw [hNames, ← List.append_assoc]
  rw [List.append_assoc source] at hPrefix
  exact (List.prefix_append _ _).trans hPrefix

/-
  Moving a file from the source to a free place in the target
  creates the directories above that place and puts the file
  there.
-/
theorem moveFile_eq
    (h : MovesBelow fs staging root source target paths)
    (hPath : path ∈ paths)
    (hFile : fs.entryAt? (source ++ Path.names path) =
      some (.file content.toUTF8))
    (hOldCheck : checkPath (Path.join staging path) = .ok ())
    (hWritable : IsWritable fs root target path) :
    ∃ middle init name,
      createParent (Path.join root path) fs = .ok () middle ∧
      Path.names path = init ++ [name] ∧
      Grows (· <+: target ++ init) fs middle ∧
      middle.entryAt? (target ++ init) = some .directory ∧
      middle.entryAt? (target ++ init ++ [name]) ≠ some .directory ∧
      moveFile staging root path fs =
        .ok () ((middle.remove (source ++ init ++ [name])).put
          (target ++ init ++ [name]) (.file content.toUTF8)) := by
  have hInside := h.inside path hPath
  rcases hWritable.exists_parent h.rooted h.targetLinks h.rootNe
      hInside with
    ⟨middle, init, name, hCreate, hNames, hGrows, hNewLies, hPlace⟩
  rcases h.grows hPath hNames hGrows with ⟨hMiddle, hSame⟩
  have hSourceFile : middle.entryAt? (source ++ init ++ [name]) =
      some (.file content.toUTF8) := by
    rw [List.append_assoc, ← hNames,
      hSame _ (List.prefix_append _ _), hFile]
  have hOldLies := liesIn_join_of_endsInName hMiddle.staged h.stagingNe
    hInside hWritable.ends hWritable.fits hNames
    (by rw [hSourceFile]; simp)
  have hPlaceApart := h.not_prefix_place hPath hNames
  have hSlash : ∀ base, base ≠ "" →
      Path.endsInSlash (Path.join base path) = false := by
    intro base hBase
    rw [Path.endsInSlash_join hBase hInside.ne_empty hInside.relative,
      hWritable.ends.noSlash]
  -- the new place is no directory, so nothing staged is below it
  have hNotAbove : ¬ target ++ init ++ [name] <+:
      source ++ init ++ [name] := by
    intro hPrefix
    refine hPlace (directory_of_isPrefix hPrefix ?_ ?_)
    · intro hEq
      exact hPlaceApart (hEq ▸ List.prefix_refl _)
    · rw [hSourceFile]
      simp
  have hRename := rename_file hOldCheck hWritable.check
    (hSlash _ h.stagingNe) (hSlash _ h.rootNe) hOldLies hNewLies
    (entryAt?_eq_file_iff.mp hSourceFile) hPlaceApart hNotAbove hPlace
  exact ⟨middle, init, name, hCreate, hNames, hGrows, hNewLies.directory,
    hPlace, Writing.bind_eq_ok_iff.mpr ⟨(), middle, hCreate,
      Writing.perform_eq_ok_iff.mpr hRename⟩⟩

/- A file in the source can be moved to a free place in the target. -/
theorem moveFile_succeeds
    (h : MovesBelow fs staging root source target paths)
    (hPath : path ∈ paths)
    (hFile : fs.entryAt? (source ++ Path.names path) =
      some (.file content.toUTF8))
    (hOldCheck : checkPath (Path.join staging path) = .ok ())
    (hWritable : IsWritable fs root target path) :
    ∃ fs', moveFile staging root path fs = .ok () fs' ∧
      MovesBelow fs' staging root source target paths ∧
      (∀ loc, ¬ source <+: loc → fs'.entryAt? loc =
        overlay target [(path, content)] fs.entryAt? loc) ∧
      ∀ loc, source <+: loc → fs'.entryAt? loc =
        if loc = source ++ Path.names path then none
        else fs.entryAt? loc := by
  rcases h.moveFile_eq hPath hFile hOldCheck hWritable with
    ⟨middle, init, name, -, hNames, hGrows, hDirectory, hPlace, hMove⟩
  rcases h.grows hPath hNames hGrows with ⟨hMiddle, hSame⟩
  have hApart := h.apart path hPath
  have hSourceFile : middle.entryAt? (source ++ init ++ [name]) =
      some (.file content.toUTF8) := by
    rw [List.append_assoc, ← hNames,
      hSame _ (List.prefix_append _ _), hFile]
  rw [hNames, ← List.append_assoc] at hApart
  have hEntries := entryAt?_moveFile hDirectory hSourceFile
    (h.not_prefix_place hPath hNames) hPlace
  refine ⟨_, hMove, ?_, ?_, ?_⟩
  · refine hMiddle.moved rfl ⟨_, hSourceFile⟩ hPlace ?_ hEntries
    rw [List.append_assoc]
    exact List.prefix_append _ _
  · intro loc hLoc
    have hOld : loc ≠ source ++ init ++ [name] := by
      rintro rfl
      rw [List.append_assoc] at hLoc
      exact hLoc (List.prefix_append _ _)
    rw [hEntries, if_neg hOld,
      overlay_of_parent hNames hGrows hDirectory, hNames,
      ← List.append_assoc]
  · intro loc hLoc
    have hNew : loc ≠ target ++ init ++ [name] := by
      rintro rfl
      exact hApart hLoc
    rw [hEntries, if_neg hNew, hSame loc hLoc, hNames,
      ← List.append_assoc]

end MovesBelow

------------------------------------------------------------
-- Moving All Files
------------------------------------------------------------

/-
  Files with distinct places have been moved: each of them is
  gone from the source and lies below the target.
-/
structure HasMoved
    (source target : Location)
    (files : List (String × String))
    (fs fs' : FileSystem) : Prop where
  placed : ∀ loc, ¬ source <+: loc →
    fs'.entryAt? loc = overlay target files fs.entryAt? loc
  gone : ∀ file ∈ files,
    fs'.entryAt? (source ++ Path.names file.1) = none
  left : ∀ loc, source <+: loc →
    (∀ file ∈ files, loc ≠ source ++ Path.names file.1) →
      fs'.entryAt? loc = fs.entryAt? loc

theorem HasMoved.nil
    (source target : Location)
    (fs : FileSystem) :
    HasMoved source target [] fs fs where
  placed loc _ := by rw [overlay_nil]
  gone := by simp
  left _ _ _ := rfl

/- What is where depends on what was there only. -/
theorem overlay_congr
    {base : Location}
    {files : List (String × String)}
    {before after : Location → Option Entry}
    {loc : Location}
    (h : before loc = after loc) :
    overlay base files before loc = overlay base files after loc := by
  simp only [overlay, h]

/- One file has been moved, and then others with other places. -/
theorem HasMoved.cons
    {source target : Location}
    {path content : String}
    {rest : List (String × String)}
    {fs middle fs' : FileSystem}
    (hApart : ∀ other ∈ rest, Path.names path ≠ Path.names other.1)
    (hPlaced : ∀ loc, ¬ source <+: loc → middle.entryAt? loc =
      overlay target [(path, content)] fs.entryAt? loc)
    (hLeft : ∀ loc, source <+: loc → middle.entryAt? loc =
      if loc = source ++ Path.names path then none
      else fs.entryAt? loc)
    (hMoved : HasMoved source target rest middle fs') :
    HasMoved source target ((path, content) :: rest) fs fs' := by
  refine ⟨?_, ?_, ?_⟩
  · intro loc hLoc
    rw [hMoved.placed loc hLoc, overlay_cons]
    exact overlay_congr (hPlaced loc hLoc)
  · rw [List.forall_mem_cons]
    refine ⟨?_, hMoved.gone⟩
    rw [hMoved.left _ (List.prefix_append _ _), hLeft _
      (List.prefix_append _ _), if_pos rfl]
    intro other hOther hEq
    exact hApart other hOther (List.append_cancel_left hEq)
  · intro loc hLoc hNot
    rw [List.forall_mem_cons] at hNot
    rw [hMoved.left loc hLoc hNot.2, hLeft loc hLoc, if_neg hNot.1]

namespace MovesBelow

variable {fs : FileSystem} {staging root : String}
variable {source target : Location} {paths : List String}
variable {files : List (String × String)}

/- Files can be moved to free places apart from each other. -/
theorem moveFiles_succeeds
    (h : MovesBelow fs staging root source target paths)
    (hPaths : ∀ file ∈ files, file.1 ∈ paths)
    (hFiles : ∀ file ∈ files,
      fs.entryAt? (source ++ Path.names file.1) =
        some (.file file.2.toUTF8))
    (hDistinct : DistinctPlaces files)
    (hApart : NoneAbove (files.map Prod.fst))
    (hOldChecks : ∀ file ∈ files,
      checkPath (Path.join staging file.1) = .ok ())
    (hWritable : ∀ file ∈ files, IsWritable fs root target file.1) :
    ∃ fs', moveFiles staging root (files.map Prod.fst) fs =
        .ok () fs' ∧
      MovesBelow fs' staging root source target paths ∧
      HasMoved source target files fs fs' := by
  induction files generalizing fs with
  | nil => exact ⟨fs, rfl, h, HasMoved.nil _ _ _⟩
  | cons file rest ih =>
      rcases file with ⟨path, content⟩
      have hPath : path ∈ paths := hPaths (path, content) (by simp)
      rcases h.moveFile_succeeds hPath (hFiles (path, content) (by simp))
          (hOldChecks (path, content) (by simp))
          (hWritable (path, content) (by simp)) with
        ⟨middle, hOne, hMiddle, hPlaced, hLeft⟩
      rw [DistinctPlaces, List.pairwise_cons] at hDistinct
      rcases hDistinct with ⟨hOthersApart, hOthers⟩
      have hMem : ∀ other ∈ rest,
          other.1 ∈ ((path, content) :: rest).map Prod.fst :=
        fun other hOther => List.mem_map_of_mem (by simp [hOther])
      have hFree : ∀ other ∈ rest,
          IsFree middle target (Path.names other.1) := by
        intro other hOther
        refine (hWritable other (by simp [hOther])).free.overlay content
          (fun above hAbove => hPlaced _ ?_)
          (hApart path (by simp) other.1 (hMem other hOther))
          (fun hOver => (hApart other.1 (hMem other hOther) path
            (by simp) hOver).symm)
        intro hSource
        exact h.apart other.1 (hPaths other (by simp [hOther]))
          (hSource.trans
            ((List.prefix_append_right_inj target).mpr hAbove))
      rcases ih hMiddle
          (fun other hOther => hPaths other (by simp [hOther]))
          (fun other hOther => by
            rw [hLeft _ (List.prefix_append _ _), if_neg,
              hFiles other (by simp [hOther])]
            simpa using (hOthersApart other hOther).symm)
          hOthers
          (fun p hp q hq => hApart p (List.mem_cons_of_mem _ hp) q
            (List.mem_cons_of_mem _ hq))
          (fun other hOther => hOldChecks other (by simp [hOther]))
          (fun other hOther =>
            have hOld := hWritable other (by simp [hOther])
            ⟨hOld.ends, hOld.fits, hOld.check, hFree other hOther⟩) with
        ⟨fs', hRest, hAfter, hMoved⟩
      refine ⟨fs', ?_, hAfter,
        HasMoved.cons hOthersApart hPlaced hLeft hMoved⟩
      rw [List.map_cons, moveFiles_cons]
      exact Writing.bind_eq_ok_iff.mpr ⟨(), middle, hOne, hRest⟩

end MovesBelow

end Bindery

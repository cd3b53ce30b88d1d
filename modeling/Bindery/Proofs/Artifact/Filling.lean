import Bindery.Proofs.Artifact.Checks
import Bindery.Proofs.Artifact.Directories

/-
  This file says what writing files below a directory does: it
  changes nothing elsewhere, and below the directory it lays
  the files over what was there.

  Key definitions include:
    * `FillsBelow`
    * `Path.EndsInName`
    * `IsWritable`
    * `lastAt`
    * `overlay`

  Key theorems include:
    * `stageFiles_fills`
    * `stageFiles_eq_ok`
    * `stageFiles_succeeds`
-/

namespace Bindery

open FileSystem
open Bindery.Path (Step)

------------------------------------------------------------
-- Filling a Directory
------------------------------------------------------------

/-
  A change below a directory, in which directories and links
  stay what they are and no link is new.
-/
structure FillsBelow
    (base : Location)
    (fs fs' : FileSystem) : Prop where
  keeps : Keeps fs fs'
  outside : ∀ loc, ¬ base <+: loc → fs'.entryAt? loc = fs.entryAt? loc
  noLinks : NoLinksBelow fs base → NoLinksBelow fs' base

namespace FillsBelow

variable {base : Location} {fs fs' : FileSystem}

theorem refl (base : Location) (fs : FileSystem) :
    FillsBelow base fs fs :=
  ⟨Keeps.refl fs, fun _ _ => rfl, fun h => h⟩

theorem trans
    {fs₁ fs₂ fs₃ : FileSystem}
    (h : FillsBelow base fs₁ fs₂)
    (h' : FillsBelow base fs₂ fs₃) :
    FillsBelow base fs₁ fs₃ where
  keeps := h.keeps.trans h'.keeps
  outside loc hLoc :=
    (h'.outside loc hLoc).trans (h.outside loc hLoc)
  noLinks hLinks := h'.noLinks (h.noLinks hLinks)

/- New directories on the way from a directory lie below it. -/
theorem of_grows
    {names : List String}
    (hBase : fs.entryAt? base = some .directory)
    (h : Grows (· <+: base ++ names) fs fs') :
    FillsBelow base fs fs' where
  keeps := h.keeps
  outside loc hLoc := by
    cases hOld : fs.entryAt? loc with
    | some e => exact h.kept loc e hOld
    | none =>
        by_contra hSome
        rcases List.prefix_or_prefix_of_prefix (h.new loc hOld hSome).2
          (List.prefix_append base names) with hAbove | hBelow
        · simp [directory_above hAbove hBase] at hOld
        · exact hLoc hBelow
  noLinks hLinks := hLinks.grows h

/- A file that is put below a directory where none is. -/
theorem of_put
    {dir : Location}
    {name : String}
    {content : ByteArray}
    (hBase : base <+: dir)
    (hDir : fs.entryAt? dir = some .directory)
    (hPlace : fs.entryAt? (dir ++ [name]) ≠ some .directory)
    (hLink : ∀ target,
      fs.entryAt? (dir ++ [name]) ≠ some (.link target)) :
    FillsBelow base fs (fs.put (dir ++ [name]) (.file content)) := by
  have hPut := entryAt?_put_file hDir hPlace content
  refine ⟨⟨rfl, fun loc hLoc => ?_, fun loc target hLoc => ?_⟩,
    fun loc hLoc => ?_, fun hLinks below target => ?_⟩
  · rw [hPut, if_neg, hLoc]
    rintro rfl
    exact hPlace hLoc
  · rw [hPut, if_neg, hLoc]
    rintro rfl
    exact hLink target hLoc
  · rw [hPut, if_neg]
    rintro rfl
    exact hLoc (hBase.trans (List.prefix_append _ _))
  · rw [hPut]
    split
    · simp
    · exact hLinks below target

end FillsBelow

theorem FileSystem.NoLinks.fills
    {fs fs' : FileSystem}
    {base : Location}
    (hLinks : NoLinks fs)
    (hFills : FillsBelow base fs fs') :
    NoLinks fs' := by
  intro loc target
  by_cases hLoc : base <+: loc
  · rcases hLoc with ⟨below, rfl⟩
    exact hFills.noLinks (hLinks.below base) below target
  · rw [hFills.outside loc hLoc]
    exact hLinks loc target

------------------------------------------------------------
-- Writing One File
------------------------------------------------------------

/- A path that ends in a name. -/
structure Path.EndsInName (path : String) : Prop where
  noSlash : endsInSlash path = false
  way : ∃ way name, steps path = way ++ [.enter name]

section Below

variable {fs fs' : FileSystem} {root path : String} {base : Location}

/- The last name on the way to a path that is joined to a base. -/
theorem liesIn_join
    {dir : Location}
    {name : String}
    (hBase : fs.LeadsTo root base)
    (hLinks : NoLinksBelow fs base)
    (hRoot : root ≠ "")
    (hInside : Path.StaysInside path)
    (h : fs.LiesIn (Path.join root path) dir name) :
    ∃ init, Path.names path = init ++ [name] ∧ dir = base ++ init ∧
      (∃ way, Path.steps path = way ++ [.enter name]) ∧
      ∀ n ∈ Path.names path, FitsName n := by
  have hNe := Path.steps_ne_nil hInside.ne_empty hInside.relative
  have hSplit :
      ∃ way step, Path.steps path = way ++ [step] :=
    ⟨_, _, (List.dropLast_concat_getLast hNe).symm⟩
  rcases hSplit with ⟨way, step, hSteps⟩
  have hLast := h.getLast?_steps
  rw [Path.steps_join hRoot hInside.relative, hSteps] at hLast
  have hEq : step = .enter name := by simpa using hLast
  subst hEq
  have hEnters := Path.entersBelow_join hRoot hInside.relative
    hInside.forward hSteps
  rcases h.eq_below hBase hLinks hEnters with ⟨hDir, -, hFits⟩
  have hNames := Path.names_of_steps hSteps
  exact ⟨_, hNames, hDir, ⟨way, hSteps⟩, hNames ▸ hFits⟩

theorem not_endsAtLink_join
    (hBase : fs.LeadsTo root base)
    (hLinks : NoLinksBelow fs base)
    (hRoot : root ≠ "")
    (hInside : Path.StaysInside path) :
    ¬ fs.EndsAtLink (Path.join root path) := by
  rintro ⟨dir, name, target, hLies, hTarget⟩
  rcases liesIn_join hBase hLinks hRoot hInside hLies with
    ⟨init, -, rfl, -⟩
  rw [List.append_assoc] at hTarget
  exact hLinks _ target hTarget

/- Where a file is put that is written below a base. -/
theorem writeFile_join_eq_ok
    {content : ByteArray}
    (hBase : fs.LeadsTo root base)
    (hLinks : NoLinksBelow fs base)
    (hRoot : root ≠ "")
    (hInside : Path.StaysInside path)
    (h : fs.writeFile (Path.join root path) content = .ok fs') :
    ∃ init name,
      Path.names path = init ++ [name] ∧ Path.EndsInName path ∧
      (∀ n ∈ Path.names path, FitsName n) ∧
      checkPath (Path.join root path) = .ok () ∧
      fs.entryAt? (base ++ init) = some .directory ∧
      fs.entryAt? (base ++ init ++ [name]) ≠ some .directory ∧
      fs' = fs.put (base ++ init ++ [name]) (.file content) := by
  rw [writeFile_eq_ok_iff
    (not_endsAtLink_join hBase hLinks hRoot hInside)] at h
  rcases h with ⟨hSlash, hCheck, dir, name, hLies, hPlace, rfl⟩
  rcases liesIn_join hBase hLinks hRoot hInside hLies with
    ⟨init, hNames, rfl, ⟨way, hSteps⟩, hFits⟩
  rw [Path.endsInSlash_join hRoot hInside.ne_empty hInside.relative]
    at hSlash
  exact ⟨init, name, hNames, ⟨hSlash, way, name, hSteps⟩, hFits, hCheck,
    hLies.directory, hPlace, rfl⟩

/- Creating the directory of a file changes nothing elsewhere. -/
theorem createParent_fills
    (hBase : fs.LeadsTo root base)
    (hLinks : NoLinksBelow fs base)
    (hRoot : root ≠ "")
    (hInside : Path.StaysInside path) :
    FillsBelow base fs
      (Writing.final (createParent (Path.join root path)) fs) :=
  FillsBelow.of_grows hBase.directory
    (createParent_grows_below hBase hLinks
      (Path.below_join hRoot hInside.relative hInside.forward))

/- Nor does writing the file. -/
theorem writeWithParents_fills
    (hBase : fs.LeadsTo root base)
    (hLinks : NoLinksBelow fs base)
    (hRoot : root ≠ "")
    (hInside : Path.StaysInside path)
    (content : String) :
    FillsBelow base fs
      (Writing.final
        (writeWithParents (Path.join root path) content) fs) := by
  apply Writing.final_bind (createParent_fills hBase hLinks hRoot hInside)
  intro _ middle _ hFills
  apply Writing.final_perform hFills
  intro after hWrite
  have hMiddleLinks := hFills.noLinks hLinks
  rcases writeFile_join_eq_ok (hBase.mono hFills.keeps)
      hMiddleLinks hRoot hInside hWrite with
    ⟨init, name, -, -, -, -, hDirectory, hPlace, rfl⟩
  apply hFills.trans
  apply FillsBelow.of_put (List.prefix_append _ _) hDirectory hPlace
  intro target
  rw [List.append_assoc]
  exact hMiddleLinks _ target

end Below

------------------------------------------------------------
-- Overlays
------------------------------------------------------------

/- The content that the last of some files has for a location. -/
def lastAt (base : Location) :
    List (String × String) → Location → Option String
| [], _ => none
| (path, content) :: rest, loc =>
    match lastAt base rest loc with
    | some later => some later
    | none =>
        if loc = base ++ Path.names path then some content else none

/-
  What is where once files have been put below a base, with
  directories on the way to them.
-/
def overlay
    (base : Location)
    (files : List (String × String))
    (before : Location → Option Entry)
    (loc : Location) : Option Entry :=
  match lastAt base files loc with
  | some content => some (.file content.toUTF8)
  | none =>
      if before loc = none ∧
          ∃ file ∈ files, loc <+: base ++ Path.names file.1 then
        some .directory
      else before loc

section Overlay

variable {base : Location} {before : Location → Option Entry}
variable {files rest : List (String × String)}

theorem overlay_nil : overlay base [] before = before := by
  funext loc
  simp [overlay, lastAt]

theorem overlay_singleton
    (base : Location)
    (before : Location → Option Entry)
    (path content : String)
    (loc : Location) :
    overlay base [(path, content)] before loc =
      if loc = base ++ Path.names path then
        some (.file content.toUTF8)
      else if before loc = none ∧ loc <+: base ++ Path.names path then
        some .directory
      else before loc := by
  by_cases hPlace : loc = base ++ Path.names path
  · simp [overlay, lastAt, hPlace]
  · simp [overlay, lastAt, hPlace]

/- A file that is put where its directory has been created. -/
theorem overlay_of_parent
    {fs fs' : FileSystem}
    {init : List String}
    {path name : String}
    (hNames : Path.names path = init ++ [name])
    (hGrows : Grows (· <+: base ++ init) fs fs')
    (hDirectory : fs'.entryAt? (base ++ init) = some .directory)
    (content : String)
    (loc : Location) :
    overlay base [(path, content)] fs.entryAt? loc =
      if loc = base ++ Path.names path then
        some (.file content.toUTF8)
      else fs'.entryAt? loc := by
  rw [overlay_singleton, hGrows.entryAt?_eq hDirectory]
  by_cases hEq : loc = base ++ Path.names path
  · simp [hEq]
  · have hPrefix : loc <+: base ++ Path.names path ↔
        loc <+: base ++ init := by
      rw [hNames, ← List.append_assoc] at hEq ⊢
      rw [List.prefix_concat_iff, or_iff_right hEq]
    simp only [if_neg hEq, hPrefix]

/- Files are put one after the other. -/
theorem overlay_cons
    (file : String × String) :
    overlay base (file :: rest) before =
      overlay base rest (overlay base [file] before) := by
  funext loc
  rcases file with ⟨path, content⟩
  have hOne := overlay_singleton base before path content loc
  rw [overlay, overlay, hOne]
  cases hLast : lastAt base rest loc with
  | some later => simp [lastAt, hLast]
  | none =>
      by_cases hPlace : loc = base ++ Path.names path
      · subst hPlace
        simp [lastAt, hLast]
      simp only [lastAt, hLast, if_neg hPlace, List.mem_cons,
        exists_eq_or_imp]
      by_cases hNone : before loc = none
      · by_cases hAbove : loc <+: base ++ Path.names path
        · simp [hNone, hAbove]
        · simp only [hNone, hAbove, false_or, and_false, true_and,
            if_false]
      · simp [hNone]

/- Only the names below the base count. -/
theorem lastAt_append
    (base names : Location)
    (files : List (String × String)) :
    lastAt base files (base ++ names) = lastAt [] files names := by
  induction files with
  | nil => rfl
  | cons file rest ih =>
      simp only [lastAt, ih, List.append_right_inj, List.nil_append]

/- So they do for what is where in the end. -/
theorem overlay_append
    (base names : Location)
    (files : List (String × String))
    (before : Location → Option Entry) :
    overlay base files before (base ++ names) =
      overlay [] files (fun loc => before (base ++ loc)) names := by
  simp only [overlay, lastAt_append, List.prefix_append_right_inj,
    List.nil_append]

theorem exists_of_lastAt
    {loc : Location}
    {content : String}
    (h : lastAt base files loc = some content) :
    ∃ file ∈ files, file.2 = content ∧
      loc = base ++ Path.names file.1 := by
  induction files with
  | nil => simp [lastAt] at h
  | cons file rest ih =>
      rcases file with ⟨path, own⟩
      cases hLast : lastAt base rest loc with
      | some later =>
          rw [lastAt, hLast] at h
          rcases ih (hLast.trans h) with ⟨other, hOther, hContent, hLoc⟩
          exact ⟨other, by simp [hOther], hContent, hLoc⟩
      | none =>
          simp only [lastAt, hLast] at h
          split at h
          · rename_i hLoc
            exact ⟨(path, own), by simp, by simpa using h, hLoc⟩
          · simp at h

/- No two of some files have the same place. -/
def DistinctPlaces (files : List (String × String)) : Prop :=
  files.Pairwise fun file other =>
    Path.names file.1 ≠ Path.names other.1

theorem lastAt_of_distinct
    {file : String × String}
    (hDistinct : DistinctPlaces files)
    (hFile : file ∈ files) :
    lastAt base files (base ++ Path.names file.1) = some file.2 := by
  induction files with
  | nil => simp at hFile
  | cons first rest ih =>
      rcases first with ⟨path, content⟩
      rw [DistinctPlaces, List.pairwise_cons] at hDistinct
      rcases hDistinct with ⟨hApart, hRest⟩
      rcases List.mem_cons.mp hFile with rfl | hMem
      · cases hLast : lastAt base rest (base ++ Path.names path) with
        | none => simp [lastAt, hLast]
        | some later =>
            rcases exists_of_lastAt hLast with ⟨other, hOther, -, hLoc⟩
            exact absurd (List.append_cancel_left hLoc)
              (hApart other hOther)
      · rw [lastAt, ih hRest hMem]

/- Which files are there once files with distinct places were put. -/
theorem overlay_eq_file_iff_of_distinct
    {loc : Location}
    {content : ByteArray}
    (hDistinct : DistinctPlaces files)
    (hBefore : ∀ old, before loc ≠ some (.file old)) :
    overlay base files before loc = some (.file content) ↔
      ∃ file ∈ files, loc = base ++ Path.names file.1 ∧
        file.2.toUTF8 = content := by
  constructor
  · intro h
    unfold overlay at h
    split at h
    · rename_i text hLast
      rcases exists_of_lastAt hLast with ⟨file, hFile, rfl, hLoc⟩
      exact ⟨file, hFile, hLoc, by simpa using h⟩
    · split at h
      · simp at h
      · exact absurd h (hBefore content)
  · rintro ⟨file, hFile, rfl, rfl⟩
    rw [overlay, lastAt_of_distinct hDistinct hFile]

theorem lastAt_ne_none_of_mem
    {path : String}
    (h : path ∈ files.map Prod.fst) :
    lastAt base files (base ++ Path.names path) ≠ none := by
  induction files with
  | nil => simp at h
  | cons file rest ih =>
      rcases file with ⟨first, content⟩
      cases hLast : lastAt base rest (base ++ Path.names path) with
      | some later => simp [lastAt, hLast]
      | none =>
          have hRest : path ∉ rest.map Prod.fst := fun hMem =>
            ih hMem hLast
          rw [List.map_cons, List.mem_cons, or_iff_left hRest] at h
          have hEq : path = first := h
          subst hEq
          simp [lastAt, hLast]

/- What is not replaced stays. -/
theorem overlay_of_some
    {loc : Location}
    {e : Entry}
    (hLoc : before loc = some e)
    (hApart : ∀ file ∈ files, loc ≠ base ++ Path.names file.1) :
    overlay base files before loc = some e := by
  rw [overlay]
  cases hLast : lastAt base files loc with
  | some content =>
      rcases exists_of_lastAt hLast with ⟨file, hFile, -, hPlace⟩
      exact absurd hPlace (hApart file hFile)
  | none => simp [hLoc]

/- Directories on the way to files make no difference beforehand. -/
theorem overlay_of_directory
    {after : Location → Option Entry}
    {loc : Location}
    (hBefore : before loc = none)
    (hAfter : after loc = some .directory)
    (hOn : ∃ file ∈ files, loc <+: base ++ Path.names file.1) :
    overlay base files after loc = overlay base files before loc := by
  simp only [overlay, hBefore, hAfter, reduceCtorEq, false_and,
    if_false, true_and, if_pos hOn]

/- What is new is a file or a directory on the way to one. -/
theorem exists_of_overlay
    {loc : Location}
    (hLoc : before loc = none)
    (hNew : overlay base files before loc ≠ none) :
    ∃ file ∈ files, loc = base ++ Path.names file.1 ∨
      loc <+: base ++ Path.names file.1 ∧
        overlay base files before loc = some .directory := by
  rw [overlay] at hNew ⊢
  cases hLast : lastAt base files loc with
  | some content =>
      rcases exists_of_lastAt hLast with ⟨file, hFile, -, hPlace⟩
      exact ⟨file, hFile, Or.inl hPlace⟩
  | none =>
      simp only [hLast, hLoc, true_and] at hNew ⊢
      split at hNew
      · rename_i hOn
        rcases hOn with ⟨file, hFile, hAbove⟩
        exact ⟨file, hFile, Or.inr ⟨hAbove,
          if_pos ⟨file, hFile, hAbove⟩⟩⟩
      · exact absurd rfl hNew

end Overlay

------------------------------------------------------------
-- Files That Can Be Written
------------------------------------------------------------

/- A file can be written at a path below a base. -/
structure IsWritable
    (fs : FileSystem)
    (root : String)
    (base : Location)
    (path : String) : Prop where
  ends : Path.EndsInName path
  fits : ∀ n ∈ Path.names path, FitsName n
  check : checkPath (Path.join root path) = .ok ()
  free : IsFree fs base (Path.names path)

theorem Path.EndsInName.exists_names
    {path : String}
    (h : Path.EndsInName path) :
    ∃ init name, Path.names path = init ++ [name] := by
  rcases h.way with ⟨way, name, hSteps⟩
  exact ⟨_, name, Path.names_of_steps hSteps⟩

section Write

variable {fs fs' : FileSystem} {root path content : String}
variable {base : Location}

/- What has been found and changed when a file has been written. -/
theorem writeWithParents_eq_ok
    (hBase : fs.LeadsTo root base)
    (hLinks : NoLinksBelow fs base)
    (hRoot : root ≠ "")
    (hInside : Path.StaysInside path)
    (h : writeWithParents (Path.join root path) content fs =
      .ok () fs') :
    IsWritable fs root base path ∧
      ∀ loc, fs'.entryAt? loc =
        overlay base [(path, content)] fs.entryAt? loc := by
  rcases Writing.bind_eq_ok_iff.mp h with ⟨⟨⟩, middle, hCreate, hWrite⟩
  have hFills := createParent_fills hBase hLinks hRoot hInside
  rw [Writing.final_of_ok hCreate] at hFills
  rcases writeFile_join_eq_ok (hBase.mono hFills.keeps)
      (hFills.noLinks hLinks) hRoot hInside
      (Writing.perform_eq_ok_iff.mp hWrite) with
    ⟨init, name, hNames, hEnds, hFits, hCheck, hDirectory, hPlace, rfl⟩
  have hBelow :=
    Path.below_join hRoot hInside.relative hInside.forward
  rw [hNames] at hBelow
  have hGrows := (createParent_below hBase hLinks hBelow hCreate).1
  refine ⟨⟨hEnds, hFits, hCheck, ?_⟩, fun loc => ?_⟩
  · rw [hNames, isFree_snoc_iff hBase.directory]
    exact ⟨hGrows.isOpen hDirectory,
      fun hOld => hPlace (hGrows.kept _ _ hOld)⟩
  · rw [entryAt?_put_file hDirectory hPlace content.toUTF8,
      overlay_of_parent hNames hGrows hDirectory, hNames,
      List.append_assoc]

/-
  The directory of a place that is free can be created, and the
  place is still free then.
-/
theorem IsWritable.exists_parent
    (hBase : fs.LeadsTo root base)
    (hLinks : NoLinksBelow fs base)
    (hRoot : root ≠ "")
    (hInside : Path.StaysInside path)
    (h : IsWritable fs root base path) :
    ∃ middle init name,
      createParent (Path.join root path) fs = .ok () middle ∧
      Path.names path = init ++ [name] ∧
      Grows (· <+: base ++ init) fs middle ∧
      middle.LiesIn (Path.join root path) (base ++ init) name ∧
      middle.entryAt? (base ++ init ++ [name]) ≠ some .directory := by
  rcases h.ends.way with ⟨way, name, hSteps⟩
  have hEnters := Path.entersBelow_join hRoot hInside.relative
    hInside.forward hSteps
  have hNames := Path.names_of_steps hSteps
  have hFits := h.fits
  have hFree := h.free
  rw [hNames] at hFits hFree
  rw [isFree_snoc_iff hBase.directory] at hFree
  rcases createParent_succeeds hBase hLinks hEnters.below h.check
      (fun n hn => hFits n (List.mem_append_left _ hn)) hFree.1 with
    ⟨middle, hCreate⟩
  rcases createParent_below hBase hLinks hEnters.below hCreate with
    ⟨hGrows, hDirectory⟩
  refine ⟨middle, _, name, hCreate, hNames, hGrows,
    liesIn_of_entersBelow (hBase.mono hGrows.keeps) hEnters hFits
      hDirectory, ?_⟩
  rw [hGrows.entryAt?_eq hDirectory,
    if_neg fun hNew => not_snoc_isPrefix _ _ hNew.2]
  exact hFree.2

/- A file can be written where its place is free. -/
theorem writeWithParents_succeeds
    (hBase : fs.LeadsTo root base)
    (hLinks : NoLinksBelow fs base)
    (hRoot : root ≠ "")
    (hInside : Path.StaysInside path)
    (h : IsWritable fs root base path)
    (content : String) :
    ∃ fs', writeWithParents (Path.join root path) content fs =
      .ok () fs' := by
  rcases h.exists_parent hBase hLinks hRoot hInside with
    ⟨middle, init, name, hCreate, -, hGrows, hLies, hPlace⟩
  have hNotLink := not_endsAtLink_join (hBase.mono hGrows.keeps)
    (hLinks.grows hGrows) hRoot hInside
  have hSlash : Path.endsInSlash (Path.join root path) = false := by
    rw [Path.endsInSlash_join hRoot hInside.ne_empty hInside.relative,
      h.ends.noSlash]
  have hWrite : middle.writeFile (Path.join root path)
      content.toUTF8 = .ok (middle.put (base ++ init ++ [name])
        (.file content.toUTF8)) :=
    (writeFile_eq_ok_iff hNotLink).mpr
      ⟨hSlash, h.check, _, name, hLies, hPlace, rfl⟩
  exact ⟨_, Writing.bind_eq_ok_iff.mpr ⟨(), middle, hCreate,
    Writing.perform_eq_ok_iff.mpr hWrite⟩⟩

end Write

------------------------------------------------------------
-- Writing All Files
------------------------------------------------------------

section Stage

variable {fs fs' : FileSystem} {staging : String} {base : Location}
variable {files : List (String × String)}

/- Staging files changes nothing outside the staging directory. -/
theorem stageFiles_fills
    (hBase : fs.LeadsTo staging base)
    (hLinks : NoLinksBelow fs base)
    (hStaging : staging ≠ "")
    (hInside : ∀ file ∈ files, Path.StaysInside file.1) :
    FillsBelow base fs
      (Writing.final (stageFiles staging files) fs) := by
  induction files generalizing fs with
  | nil => exact FillsBelow.refl _ _
  | cons file rest ih =>
      rcases file with ⟨path, content⟩
      have hWrite := writeWithParents_fills hBase hLinks hStaging
        (hInside (path, content) (by simp)) content
      apply Writing.final_bind hWrite
      intro _ middle _ hMiddle
      exact hMiddle.trans (ih (hBase.mono hMiddle.keeps)
        (hMiddle.noLinks hLinks)
        (fun other hOther => hInside other (by simp [hOther])))

/- What is where once all files have been staged. -/
theorem stageFiles_eq_ok
    (hBase : fs.LeadsTo staging base)
    (hLinks : NoLinksBelow fs base)
    (hStaging : staging ≠ "")
    (hInside : ∀ file ∈ files, Path.StaysInside file.1)
    (h : stageFiles staging files fs = .ok () fs') :
    (∀ loc, fs'.entryAt? loc = overlay base files fs.entryAt? loc) ∧
      ∀ file ∈ files, Path.EndsInName file.1 ∧
        (∀ n ∈ Path.names file.1, FitsName n) ∧
        checkPath (Path.join staging file.1) = .ok () := by
  induction files generalizing fs with
  | nil =>
      have hEq : fs = fs' := by
        simpa [stageFiles, pure, EStateM.pure] using h
      subst hEq
      exact ⟨fun loc => by rw [overlay_nil], by simp⟩
  | cons file rest ih =>
      rcases file with ⟨path, content⟩
      rcases Writing.bind_eq_ok_iff.mp h with ⟨⟨⟩, middle, hOne, hRest⟩
      have hWrite := writeWithParents_fills hBase hLinks hStaging
        (hInside (path, content) (by simp)) content
      rw [Writing.final_of_ok hOne] at hWrite
      rcases writeWithParents_eq_ok hBase
          hLinks hStaging (hInside (path, content) (by simp)) hOne with
        ⟨hWritable, hEntries⟩
      rcases ih (hBase.mono hWrite.keeps)
          (hWrite.noLinks hLinks)
          (fun other hOther => hInside other (by simp [hOther]))
          hRest with
        ⟨hAll, hFiles⟩
      constructor
      · intro loc
        rw [hAll, overlay_cons, funext hEntries]
      · rw [List.forall_mem_cons]
        exact ⟨⟨hWritable.ends, hWritable.fits, hWritable.check⟩,
          hFiles⟩

/- No path of a list goes on from where another one ends. -/
def NoneAbove (paths : List String) : Prop :=
  ∀ path ∈ paths, ∀ other ∈ paths,
    Path.names path <+: Path.names other →
      Path.names path = Path.names other

instance (paths : List String) : Decidable (NoneAbove paths) :=
  inferInstanceAs (Decidable (∀ _ ∈ paths, ∀ _ ∈ paths, _ → _))

/- A place stays free when a file is put beside it. -/
theorem IsFree.overlay
    {path other : String}
    (content : String)
    (hEntries : ∀ above, above <+: Path.names other →
      fs'.entryAt? (base ++ above) =
        Bindery.overlay base [(path, content)] fs.entryAt?
          (base ++ above))
    (hUnder : Path.names path <+: Path.names other →
      Path.names path = Path.names other)
    (hOver : Path.names other <+: Path.names path →
      Path.names path = Path.names other)
    (h : IsFree fs base (Path.names other)) :
    IsFree fs' base (Path.names other) := by
  constructor
  · intro above hAbove hNe
    rw [hEntries above hAbove, overlay_singleton]
    by_cases hEq : above = Path.names path
    · exact absurd (hEq.trans (hUnder (hEq ▸ hAbove))) hNe
    · rw [if_neg (by simpa using hEq)]
      split
      · exact Or.inr rfl
      · exact h.above above hAbove hNe
  · rw [hEntries _ (List.prefix_refl _), overlay_singleton]
    by_cases hEq : Path.names other = Path.names path
    · simp [hEq]
    · rw [if_neg (by simpa using hEq), if_neg]
      · exact h.place
      · rintro ⟨-, hPrefix⟩
        rw [List.prefix_append_right_inj] at hPrefix
        exact hEq (hOver hPrefix).symm

/- Files whose places do not get in each other's way can be staged. -/
theorem stageFiles_succeeds
    (hBase : fs.LeadsTo staging base)
    (hLinks : NoLinksBelow fs base)
    (hStaging : staging ≠ "")
    (hInside : ∀ file ∈ files, Path.StaysInside file.1)
    (hWritable : ∀ file ∈ files, IsWritable fs staging base file.1)
    (hApart : NoneAbove (files.map Prod.fst)) :
    ∃ fs', stageFiles staging files fs = .ok () fs' := by
  induction files generalizing fs with
  | nil => exact ⟨fs, rfl⟩
  | cons file rest ih =>
      rcases file with ⟨path, content⟩
      rcases writeWithParents_succeeds
          hBase hLinks hStaging (hInside (path, content) (by simp))
          (hWritable (path, content) (by simp)) content with
        ⟨middle, hOne⟩
      have hWrite := writeWithParents_fills hBase hLinks hStaging
        (hInside (path, content) (by simp)) content
      rw [Writing.final_of_ok hOne] at hWrite
      rcases writeWithParents_eq_ok hBase hLinks
          hStaging (hInside (path, content) (by simp)) hOne with
        ⟨-, hEntries⟩
      rcases ih (hBase.mono hWrite.keeps)
          (hWrite.noLinks hLinks)
          (fun other hOther => hInside other (by simp [hOther]))
          (fun other hOther => by
            have hOld := hWritable other (by simp [hOther])
            have hMem :
                other.1 ∈ ((path, content) :: rest).map Prod.fst :=
              List.mem_map_of_mem (by simp [hOther])
            exact ⟨hOld.ends, hOld.fits, hOld.check,
              hOld.free.overlay content (fun above _ => hEntries _)
                (hApart path (by simp) other.1 hMem)
                (fun h => (hApart other.1 hMem path (by simp) h).symm)⟩)
          (fun p hp q hq => hApart p (List.mem_cons_of_mem _ hp) q
            (List.mem_cons_of_mem _ hq)) with
        ⟨fs', hRest⟩
      exact ⟨fs', Writing.bind_eq_ok_iff.mpr ⟨(), middle, hOne, hRest⟩⟩

end Stage

end Bindery

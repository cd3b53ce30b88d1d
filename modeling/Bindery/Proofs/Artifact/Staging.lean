import Bindery.Proofs.Artifact.Directories
import Mathlib.Data.List.Nodup
import Mathlib.Data.List.Perm.Subperm

/-
  This file says how a staging directory is made: under a name
  that nothing has and that nothing mentions, so that whatever
  is done below it changes nothing that was there before.

  Key definitions include:
    * `IsStaging`
    * `takenNames`
    * `stagingPath`

  Key theorems include:
    * `freshStagingName_not_mem`
    * `makeStaging_eq_ok`
    * `makeStaging_succeeds`
-/

namespace Bindery

open FileSystem
open Bindery.Path (Step)

------------------------------------------------------------
-- Fresh Names
------------------------------------------------------------

theorem stagingName_injective : Function.Injective stagingName := by
  intro m n h
  have hDigits :
      Nat.toDigits 10 (100000 + m) = Nat.toDigits 10 (100000 + n) := by
    simpa [stagingName, Nat.repr] using congrArg String.toList h
  have hSum := congrArg (Nat.ofDigitChars 10 · 0) hDigits
  simp only [Nat.ofDigitChars_ten_toDigits] at hSum
  omega

/- There are more names to choose from than taken ones. -/
theorem exists_stagingName_not_mem (taken : List String) :
    ∃ n ∈ List.range (taken.length + 1), stagingName n ∉ taken := by
  by_contra hNot
  have hAll :
      (List.range (taken.length + 1)).map stagingName ⊆ taken := by
    intro name hName
    rcases List.mem_map.mp hName with ⟨n, hn, rfl⟩
    by_contra hFree
    exact hNot ⟨n, hn, hFree⟩
  have hNodup :
      ((List.range (taken.length + 1)).map stagingName).Nodup :=
    List.nodup_range.map stagingName_injective
  have hLength := (List.subperm_of_subset hNodup hAll).length_le
  simp only [List.length_map, List.length_range] at hLength
  omega

/- A fresh name is a staging name that is not taken. -/
theorem freshStagingName_spec (taken : List String) :
    freshStagingName taken ∉ taken ∧
      ∃ n, freshStagingName taken = stagingName n := by
  rcases exists_stagingName_not_mem taken with ⟨n, hn, hFree⟩
  unfold freshStagingName
  cases hFind : (List.range (taken.length + 1)).find?
      (fun n => !taken.contains (stagingName n)) with
  | none =>
      have hTaken := List.find?_eq_none.mp hFind n hn
      simp [hFree] at hTaken
  | some m =>
      have hMem := List.find?_some hFind
      exact ⟨by simpa using hMem, m, rfl⟩

theorem freshStagingName_not_mem (taken : List String) :
    freshStagingName taken ∉ taken :=
  (freshStagingName_spec taken).1

/- The first name is drawn unless it is taken. -/
theorem freshStagingName_of_not_mem
    {taken : List String}
    (h : stagingName 0 ∉ taken) :
    freshStagingName taken = stagingName 0 := by
  unfold freshStagingName
  rw [List.range_succ_eq_map, List.find?_cons_of_pos (by simpa using h)]

theorem isName_stagingName (n : Nat) : Path.IsName (stagingName n) := by
  apply Path.isName_of_slash_not_mem
  · intro hMem
    have hDigit : '/' ∈ Nat.toDigits 10 (100000 + n) := by
      simpa [stagingName, Nat.repr] using hMem
    have hIs := Nat.isDigit_of_mem_toDigits (by omega) (by omega) hDigit
    simp at hIs
  · simp [stagingName]

theorem isName_freshStagingName (taken : List String) :
    Path.IsName (freshStagingName taken) := by
  rcases freshStagingName_spec taken with ⟨-, n, hName⟩
  rw [hName]
  exact isName_stagingName n

------------------------------------------------------------
-- The Staging Directory
------------------------------------------------------------

/- A path below a directory that is joined to its path. -/
theorem liesIn_join_name_iff
    {fs : FileSystem}
    {parent name other : String}
    {dir : Location}
    (hParent : parent ≠ "")
    (hName : Path.IsName name) :
    fs.LiesIn (Path.join parent name) dir other ↔
      fs.LeadsTo parent dir ∧ other = name ∧ FitsName name := by
  have hSteps : Path.steps (Path.join parent name) =
      Path.steps parent ++ [.enter name] := by
    rw [Path.steps_join hParent hName.isAbsolute, hName.steps]
  have hStart : startOf fs.home (Path.join parent name) =
      startOf fs.home parent :=
    startOf_eq fs (Path.isAbsolute_join hParent hName.isAbsolute)
  constructor
  · intro h
    rcases h.way with ⟨init, hInit, hLeads⟩
    rw [hSteps] at hInit
    rcases List.append_inj' hInit rfl with ⟨rfl, hLast⟩
    have hEq : name = other := by simpa using hLast
    subst hEq
    rw [hStart] at hLeads
    exact ⟨leadsTo_iff_steps.mpr hLeads, rfl, h.fits⟩
  · rintro ⟨hLeads, rfl, hFits⟩
    refine ⟨hFits, Path.steps parent, hSteps, ?_⟩
    rw [hStart]
    exact leadsTo_iff_steps.mp hLeads

/- An empty directory that has been made under a new name. -/
structure IsStaging
    (fs : FileSystem)
    (parent : String)
    (mentioned : List String)
    (base : Location)
    (name : String) : Prop where
  parentCheck : checkPath parent = .ok ()
  parentLeads : fs.LeadsTo parent base
  isName : Path.IsName name
  fits : FitsName name
  fresh : name ∉ mentioned
  none : fs.entryAt? (base ++ [name]) = none
  check : checkPath (Path.join parent name) = .ok ()

/- The names that are taken where a staging directory is made. -/
def takenNames (fs : FileSystem) (parent : String) : List String :=
  match fs.listDirectory parent with
  | .ok names => names ++ fs.linkNames
  | .error _ => []

/- The path at which a staging directory is made. -/
def stagingPath
    (fs : FileSystem)
    (parent : String)
    (mentioned : List String) : String :=
  Path.join parent
    (freshStagingName (takenNames fs parent ++ mentioned))

section MakeStaging

variable {fs fs' : FileSystem} {parent staging : String}
variable {mentioned : List String}

theorem makeStaging_eq_ok
    (h : makeStaging parent mentioned fs = .ok staging fs') :
    ∃ base name, IsStaging fs parent mentioned base name ∧
      staging = Path.join parent name ∧
      staging = stagingPath fs parent mentioned ∧
      fs' = fs.put (base ++ [name]) (.directory []) := by
  unfold makeStaging at h
  rcases Writing.bind_eq_ok_iff.mp h with ⟨taken, middle, hTaken, hNext⟩
  rcases Writing.inspect_eq_ok_iff.mp hTaken with ⟨hTaken, rfl⟩
  rcases Writing.bind_eq_ok_iff.mp hNext with ⟨⟨⟩, after, hMake, hEnd⟩
  rw [Writing.perform_eq_ok_iff] at hMake
  have hBoth :
      Path.join parent (freshStagingName (taken ++ mentioned)) =
        staging ∧ after = fs' := by
    simpa [pure, EStateM.pure] using hEnd
  rcases hBoth with ⟨rfl, rfl⟩
  cases hList : middle.listDirectory parent with
  | error e => simp [hList] at hTaken
  | ok names =>
      have hEq : names ++ middle.linkNames = taken := by
        simpa [hList] using hTaken
      subst hEq
      rcases listDirectory_eq_ok hList with
        ⟨base, hCheckParent, hParent, hNames⟩
      rcases makeDirectory_eq_ok_iff.mp hMake with
        ⟨hCheck, dir, other, hLies, hNone, rfl⟩
      have hName :=
        isName_freshStagingName
          (names ++ middle.linkNames ++ mentioned)
      rcases (liesIn_join_name_iff
          (ne_empty_of_checkPath hCheckParent) hName).mp hLies with
        ⟨hDir, rfl, -⟩
      rcases hParent.unique hDir with rfl
      have hFresh := freshStagingName_not_mem
        (names ++ middle.linkNames ++ mentioned)
      refine ⟨base, _, ⟨hCheckParent, hParent, hName, hLies.fits, ?_,
        hNone, hCheck⟩, rfl, ?_, rfl⟩
      · intro hMem
        exact hFresh (List.mem_append_right _ hMem)
      · simp [stagingPath, takenNames, hList]

/- A staging directory that cannot be made changes nothing. -/
theorem makeStaging_eq_error
    {e : WriteError}
    (h : makeStaging parent mentioned fs = .error e fs') :
    fs' = fs := by
  unfold makeStaging at h
  rcases Writing.bind_eq_error_iff.mp h with
    hInspect | ⟨taken, middle, hTaken, hNext⟩
  · exact (Writing.inspect_eq_error_iff.mp hInspect).2
  · rcases Writing.inspect_eq_ok_iff.mp hTaken with ⟨-, rfl⟩
    rcases Writing.bind_eq_error_iff.mp hNext with
      hMake | ⟨⟨⟩, after, -, hEnd⟩
    · rcases Writing.perform_eq_error_iff.mp hMake with ⟨-, -, -, rfl⟩
      rfl
    · simp [pure, EStateM.pure] at hEnd

/- A staging directory can be made if its path is not too long. -/
theorem makeStaging_succeeds
    {base : Location}
    (hParentCheck : checkPath parent = .ok ())
    (hParent : fs.LeadsTo parent base)
    (hCheck : checkPath (stagingPath fs parent mentioned) = .ok ())
    (hFits : FitsName
      (freshStagingName (takenNames fs parent ++ mentioned))) :
    ∃ fs', makeStaging parent mentioned fs =
      .ok (stagingPath fs parent mentioned) fs' := by
  rcases listDirectory_of_leadsTo hParentCheck hParent with
    ⟨names, hList⟩
  have hTaken : takenNames fs parent = names ++ fs.linkNames := by
    simp [takenNames, hList]
  have hName := isName_freshStagingName
    (takenNames fs parent ++ mentioned)
  have hNone : fs.entryAt? (base ++
      [freshStagingName (takenNames fs parent ++ mentioned)]) =
        none := by
    by_contra hSome
    rcases listDirectory_eq_ok hList with ⟨other, -, hOther, hNames⟩
    rcases hParent.unique hOther with rfl
    have hSubset : ∀ n ∈ names, n ∈ takenNames fs parent := by
      intro n hn
      rw [hTaken]
      exact List.mem_append_left _ hn
    exact freshStagingName_not_mem (takenNames fs parent ++ mentioned)
      (List.mem_append_left _ (hSubset _ (hNames _ hSome)))
  have hLies : fs.LiesIn (stagingPath fs parent mentioned) base
      (freshStagingName (takenNames fs parent ++ mentioned)) :=
    (liesIn_join_name_iff (ne_empty_of_checkPath hParentCheck)
      hName).mpr ⟨hParent, rfl, hFits⟩
  have hMake := makeDirectory_eq_ok_iff.mpr
    ⟨hCheck, base, _, hLies, hNone, rfl⟩
  refine ⟨_, Writing.bind_eq_ok_iff.mpr
    ⟨takenNames fs parent, fs, ?_, Writing.bind_eq_ok_iff.mpr
      ⟨(), _, Writing.perform_eq_ok_iff.mpr hMake, rfl⟩⟩⟩
  exact Writing.inspect_eq_ok_iff.mpr ⟨by simp [hList, hTaken], rfl⟩

end MakeStaging

namespace IsStaging

variable {fs : FileSystem} {parent name : String} {base : Location}
variable {mentioned : List String}

theorem parent_ne_empty
    (h : IsStaging fs parent mentioned base name) :
    parent ≠ "" :=
  ne_empty_of_checkPath h.parentCheck

/- What is where once the staging directory has been made. -/
theorem entryAt?_put
    (h : IsStaging fs parent mentioned base name)
    (loc : Location) :
    (fs.put (base ++ [name]) (.directory [])).entryAt? loc =
      if loc = base ++ [name] then some .directory
      else fs.entryAt? loc :=
  entryAt?_put_directory h.parentLeads.directory (by simp [h.none]) loc

theorem grows
    (h : IsStaging fs parent mentioned base name) :
    Grows (· = base ++ [name]) fs
      (fs.put (base ++ [name]) (.directory [])) :=
  Grows.of_put_directory h.parentLeads.directory h.none

theorem leadsTo
    (h : IsStaging fs parent mentioned base name) :
    (fs.put (base ++ [name]) (.directory [])).LeadsTo
      (Path.join parent name) (base ++ [name]) := by
  have hBelow : Path.Below parent [name] (Path.join parent name) := by
    have hJoin := Path.below_join h.parent_ne_empty
      h.isName.isAbsolute h.isName.forward
    rwa [h.isName.names] at hJoin
  apply (h.parentLeads.mono h.grows.keeps).below hBelow
  · intro n hn
    have hEq : n = name := by simpa using hn
    subst hEq
    exact h.fits
  · rw [h.entryAt?_put, if_pos rfl]

/- The path of the staging directory leads to its place. -/
theorem liesIn
    {fs' : FileSystem}
    (h : IsStaging fs parent mentioned base name)
    (hKeeps : Keeps fs fs') :
    fs'.LiesIn (Path.join parent name) base name :=
  (liesIn_join_name_iff h.parent_ne_empty h.isName).mpr
    ⟨h.parentLeads.mono hKeeps, rfl, h.fits⟩

theorem endsInSlash
    (h : IsStaging fs parent mentioned base name) :
    Path.endsInSlash (Path.join parent name) = false :=
  h.isName.endsInSlash_join h.parent_ne_empty

/- There was nothing below it. -/
theorem none_below
    (h : IsStaging fs parent mentioned base name)
    (loc : Location)
    (hLoc : base ++ [name] <+: loc) :
    fs.entryAt? loc = Option.none :=
  entryAt?_of_isPrefix_of_none hLoc h.none

theorem noLinksBelow
    (h : IsStaging fs parent mentioned base name) :
    NoLinksBelow (fs.put (base ++ [name]) (.directory []))
      (base ++ [name]) := by
  intro below target
  rw [h.entryAt?_put]
  split
  · simp
  · rw [h.none_below _ (List.prefix_append _ _)]
    simp

end IsStaging

end Bindery

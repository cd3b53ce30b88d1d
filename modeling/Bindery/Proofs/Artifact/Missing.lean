import Bindery.Proofs.Artifact.Delivery

/-
  This file is about output directories that are missing.  If
  all paths above are those of directories or of nothing, then
  the directories above can be created, and files are staged in
  the last of them and published.  There may be links elsewhere.

  Key definitions include:
    * `FileSystem.IsVacant`
    * `FileSystem.Misses`
    * `IsMissing`

  Key theorems include:
    * `leadsTo_stagingParent`
    * `FileSystem.leadsTo_or_misses`
    * `exists_isMissing`
    * `exists_isStaged_of_isMissing`
    * `IsMissing.writeAll_of_isStaged`
-/

namespace Bindery

open FileSystem

------------------------------------------------------------
-- Paths at Which Nothing Is
------------------------------------------------------------

namespace FileSystem

variable {fs : FileSystem} {path : String}

/- Nothing is at a path: where its last name lies, it is missing. -/
def IsVacant (fs : FileSystem) (path : String) : Prop :=
  ∀ dir name, fs.LiesIn path dir name →
    fs.entryAt? (dir ++ [name]) = none

/- What is found at a path has a last name or is a directory. -/
theorem IsVacant.exists?_eq_false
    (h : fs.IsVacant path)
    (hSlash : Path.endsInSlash path = false)
    (hNot : ∀ loc, ¬ fs.LeadsTo path loc) :
    fs.exists? path = false := by
  rw [Bool.eq_false_iff]
  intro hExists
  rcases exists?_iff.mp hExists with ⟨loc, hResolve, -⟩
  have hCheck := (resolve_eq_ok_iff.mp hResolve).1
  have hFile : ∀ other, Found.present loc = .present other →
      fs.entryAt? other ≠ some .directory := by
    rintro other ⟨⟩ hDirectory
    exact hNot loc
      ((resolve_eq_present_iff_leadsTo hDirectory).mp hResolve).2
  rcases exists_liesIn_of_resolve hSlash hResolve hFile with
    ⟨dir, name, hLies⟩
  have hNone := h dir name hLies
  exact (hLies.exists?_iff hCheck hSlash (by simp [hNone])).mp hExists
    hNone

/-
  Of the names on the way to a path, one is missing where a
  directory has been reached.
-/
def Misses (fs : FileSystem) (path : String) : Prop :=
  ∃ base loc name rest, fs.LeadsTo base loc ∧
    Path.Below base (name :: rest) path ∧
    fs.entryAt? (loc ++ [name]) = none

theorem Misses.below
    {above : String}
    {names : List String}
    (h : fs.Misses above)
    (hBelow : Path.Below above names path) :
    fs.Misses path := by
  rcases h with ⟨base, loc, name, rest, hBase, hAbove, hNone⟩
  exact ⟨base, loc, name, rest ++ names, hBase, hAbove.trans hBelow,
    hNone⟩

/- A path that misses a name is not empty. -/
theorem Misses.ne_empty (h : fs.Misses path) : path ≠ "" := by
  rcases h with ⟨base, loc, name, rest, -, hBelow, -⟩
  rintro rfl
  have hMoves := hBelow.moves
  simp at hMoves

/-
  If directories or nothing are at a path and at those above,
  then the path leads to a directory or misses a name.
-/
theorem leadsTo_or_misses
    {base : String}
    {loc : Location}
    {names : List String}
    (hBase : fs.LeadsTo base loc)
    (hBelow : Path.Below base names path)
    (hTrimmed : Path.Trimmed path)
    (hFits : ∀ n ∈ names, FitsName n)
    (hAbove : ∀ above ∈ Path.ancestors path,
      (∃ dir, fs.LeadsTo above dir) ∨ fs.IsVacant above) :
    (∃ dir, fs.LeadsTo path dir) ∨ fs.Misses path := by
  -- The induction is on the names, from the last one upwards, as
  -- the paths above leave out one name after the other.
  induction names using List.reverseRecOn generalizing path with
  | nil => exact Or.inl ⟨loc, hBase.of_below_nil hBelow⟩
  | append_singleton init name ih =>
      rcases hBelow.exists_above with
        ⟨above, hParent, hInit, hInitTrimmed, -⟩
      have hLast : Path.Below above ([] ++ [name]) path :=
        hInit.of_append hBelow
      rw [Path.ancestors_eq, hParent, List.forall_mem_cons] at hAbove
      rw [List.forall_mem_append] at hFits
      rcases ih hInit hInitTrimmed hFits.1 hAbove.2 with
        ⟨dir, hDir⟩ | hMisses
      · refine hAbove.1.imp_right fun hVacant => ?_
        have hLies := liesIn_of_entersBelow hDir
          (hLast.entersBelow hTrimmed) hFits.2
          (by simpa using hDir.directory)
        rw [List.append_nil] at hLies
        exact ⟨above, dir, name, [], hDir, hLast,
          hVacant dir name hLies⟩
      · exact Or.inr (hMisses.below hLast)

end FileSystem

------------------------------------------------------------
-- Missing Output Directories
------------------------------------------------------------

/- There is nothing at a path, but there is the directory above. -/
structure IsMissing
    (fs : FileSystem)
    (root : String)
    (dir : Location)
    (name : String) : Prop where
  ordinary : Path.IsOrdinaryRoot root
  check : checkPath root = .ok ()
  lies : fs.LiesIn root dir name
  none : fs.entryAt? (dir ++ [name]) = none

/- The staging directory is made beside the output directory. -/
theorem leadsTo_stagingParent
    {fs : FileSystem}
    {root name : String}
    {dir : Location}
    (hCheck : checkPath root = .ok ())
    (h : fs.LiesIn root dir name) :
    checkPath (stagingParent root) = .ok () ∧
      fs.LeadsTo (stagingParent root) dir := by
  rcases h.way with ⟨init, hSteps, hLeads⟩
  have hMoves : Path.moves root = Path.moving init ++ [.enter name] := by
    rw [Path.moves_of_steps hSteps]
    simp
  rcases stagingParent_of_moves root (by simp [hMoves]) with
    ⟨⟨step, hStep⟩, hAbsolute, hText⟩
  rcases List.append_inj' (hMoves.symm.trans hStep) rfl with
    ⟨hInit, -⟩
  constructor
  · rcases hText with hDot | ⟨-, hStart⟩
    · rw [hDot]
      decide
    · exact checkPath_of_sublist (stagingParent_ne_empty root)
        hStart.sublist hCheck
  · unfold LeadsTo
    rw [← hInit, startOf_eq fs hAbsolute]
    exact hLeads.of_moving_eq (by simp)

namespace IsMissing

variable {fs : FileSystem} {root name : String} {dir : Location}

theorem entryAt?_append
    (h : IsMissing fs root dir name)
    (below : List String) :
    fs.entryAt? (dir ++ [name] ++ below) = Option.none :=
  entryAt?_of_isPrefix_of_none (List.prefix_append _ _) h.none

theorem exists?_eq_false (h : IsMissing fs root dir name) :
    fs.exists? root = false := by
  have hIff := h.lies.exists?_iff h.check h.ordinary.endsInSlash
    (by simp [h.none])
  simpa [h.none] using hIff

theorem not_leadsTo
    (h : IsMissing fs root dir name)
    (loc : Location) :
    ¬ fs.LeadsTo root loc := by
  intro hLeads
  have hExists := exists?_of_isDirectory
    (isDirectory_iff.mpr ⟨h.check, loc, hLeads⟩)
  simp [h.exists?_eq_false] at hExists

end IsMissing

------------------------------------------------------------
-- The Directories Above
------------------------------------------------------------

section Creation

variable {set : ArtifactSet} {fs grown : FileSystem}
variable {root last : String} {dir : Location}

/- Below a directory that can be created a name is missing. -/
theorem isMissing_of_misses
    {above : String}
    (hRoot : Path.IsOrdinaryRoot root)
    (hFits : Path.FitsLimits root)
    (hTrimmed : Path.Trimmed above)
    (hText : above.toList <+: root.toList)
    (hEnters : Path.EntersBelow above [] last root)
    (hMisses : fs.Misses above) :
    ∃ grown dir, createDirectories above fs = .ok () grown ∧
      IsMissing grown root dir last := by
  have hCheck : checkPath above = .ok () :=
    checkPath_of_sublist hMisses.ne_empty hText.sublist hFits.check
  rcases hMisses with ⟨base, loc, name, rest, hBase, hBelow, hNone⟩
  have hNamesFit : ∀ n ∈ name :: rest ++ [last], FitsName n := by
    intro n hn
    apply hFits.names
    rw [Path.names_eq_filterMap_moves,
      (hBelow.trans hEnters.below).moves, List.filterMap_append,
      Path.filterMap_name?_map_enter]
    exact List.mem_append_right _ hn
  rw [List.forall_mem_append] at hNamesFit
  rcases createDirectories_missing hBase hNone hBelow hTrimmed hCheck
      hNamesFit.1 with
    ⟨grown, hCreate, hGrows, hDirectory⟩
  have hLeads := (hBase.mono hGrows.keeps).below hBelow hNamesFit.1
    hDirectory
  have hLies := liesIn_of_entersBelow hLeads hEnters hNamesFit.2
    (by simpa using hDirectory)
  rw [List.append_nil] at hLies
  refine ⟨grown, _, hCreate, hRoot, hFits.check, hLies, ?_⟩
  by_contra hSome
  have hOld : fs.entryAt? (loc ++ name :: rest ++ [last]) = none :=
    entryAt?_of_isPrefix_of_none (by simp) hNone
  exact not_snoc_isPrefix _ _ (hGrows.new _ hOld hSome).2

/-
  Once the directories above have been created, an output
  directory is missing in the last of them.
-/
theorem exists_isMissing
    (hHome : fs.entryAt? fs.home = some .directory)
    (hRoot : Path.IsOrdinaryRoot root)
    (hFits : Path.FitsLimits root)
    (hVacant : fs.IsVacant root)
    (hAbove : ∀ above ∈ Path.ancestors root, above ≠ root →
      (∃ loc, fs.LeadsTo above loc) ∨ fs.IsVacant above) :
    ∃ grown dir last,
      createDirectories (stagingParent root) fs = .ok () grown ∧
        IsMissing grown root dir last := by
  rcases exists_leadsTo_startOf hHome root with
    ⟨start, hStart, hAbsolute, hMoves⟩
  rcases List.eq_nil_or_concat' (Path.names root) with
    hNil | ⟨init, last, hNames⟩
  · exact absurd hNil hRoot.names_ne_nil
  have hBelow : Path.Below start (init ++ [last]) root :=
    ⟨hAbsolute.symm, by
      rw [hMoves, ← hNames, Path.moves_eq_map_enter hRoot.forward]
      rfl⟩
  have hTrimmed : Path.Trimmed root := by
    intro hLast
    simp [hRoot.steps] at hLast
  have hNamesFit := hFits.names
  rw [hNames, List.forall_mem_append] at hNamesFit
  rcases hBelow.exists_above with
    ⟨above, hParent, hInit, hInitTrimmed, hText⟩
  have hEnters : Path.EntersBelow above [] last root :=
    Path.Below.entersBelow (hInit.of_append hBelow) hTrimmed
  have hAll : ∀ other ∈ Path.ancestors root,
      (∃ loc, fs.LeadsTo other loc) ∨ fs.IsVacant other := by
    intro other hOther
    by_cases hEq : other = root
    · exact Or.inr (hEq ▸ hVacant)
    · exact hAbove other hOther hEq
  rw [Path.ancestors_eq, hParent, List.forall_mem_cons] at hAll
  rcases leadsTo_or_misses hStart hInit hInitTrimmed hNamesFit.1
      hAll.2 with
    ⟨dir, hDir⟩ | hMisses
  · have hLies := liesIn_of_entersBelow hDir hEnters hNamesFit.2
      (by simpa using hDir.directory)
    rw [List.append_nil] at hLies
    rcases leadsTo_stagingParent hFits.check hLies with
      ⟨hParentCheck, hParentLeads⟩
    have hCreate := createDirectories_eq_ok_of_leadsTo hParentCheck
      hParentLeads
    exact ⟨fs, dir, last, hCreate, hRoot, hFits.check, hLies,
      hVacant dir last hLies⟩
  · rcases isMissing_of_misses hRoot hFits hInitTrimmed hText hEnters
        hMisses with
      ⟨grown, dir, hCreate, hMissing⟩
    have hStaging : stagingParent root = above := by
      simp [stagingParent, hParent, hMisses.ne_empty]
    exact ⟨grown, dir, last, hStaging ▸ hCreate, hMissing⟩

/- For an output directory that is missing files can be staged. -/
theorem exists_isStaged_of_isMissing
    (hVacant : fs.IsVacant root)
    (hCreate : createDirectories (stagingParent root) fs =
      .ok () grown)
    (hMissing : IsMissing grown root dir last)
    (hFiles : set.files ≠ [])
    (hPaths : ∀ path ∈ set.paths, Path.IsOrdinary path)
    (hFits : ∀ path ∈ set.paths,
      Path.FitsLimits (Path.join (set.stagingPlace root fs) path))
    (hApart : NoneAbove set.paths) :
    ∃ name staged, IsStaged set root fs grown dir name staged := by
  have hGrows := createDirectories_grows (stagingParent root) fs
  rw [Writing.final_of_ok hCreate] at hGrows
  have hNot : ∀ loc, ¬ fs.LeadsTo root loc := fun loc hLeads =>
    hMissing.not_leadsTo loc (hLeads.mono hGrows.keeps)
  have hRoot := hMissing.ordinary
  have hChecks : checkPaths fs root set.paths = .ok () :=
    (checkPaths_of_not_leadsTo hNot hRoot.ne_empty
      (hVacant.exists?_eq_false hRoot.endsInSlash hNot)).mpr
        fun path hPath => (hPaths path hPath).staysInside
  rcases ArtifactSet.exists_isStaged_of_created hFiles hPaths hFits
      hApart hChecks hCreate with
    ⟨base, name, staged, hStaged⟩
  have hParent := (leadsTo_stagingParent hMissing.check
    hMissing.lies).2
  obtain rfl := hStaged.isStaging.parentLeads.unique hParent
  exact ⟨name, staged, hStaged⟩

/- What has been staged is written to a missing output directory. -/
theorem IsMissing.writeAll_of_isStaged
    {staged : FileSystem}
    {name : String}
    (h : IsMissing grown root dir last)
    (hFiles : set.files ≠ [])
    (hStaged : IsStaged set root fs grown dir name staged) :
    ∃ fs', set.writeAll root fs = .ok (set.places root) fs' ∧
      fs'.LeadsTo root (dir ++ [last]) ∧
      ∀ below, fs'.entryAt? (dir ++ [last] ++ below) =
        overlay [] set.files (FileSystem.entryAt? bare) below := by
  rcases hStaged.writeAll_new hFiles h.check h.ordinary.endsInSlash
      h.lies h.none with
    ⟨fs', hWrite, hKeeps, hEntries⟩
  have hBelow : ∀ below, fs'.entryAt? (dir ++ [last] ++ below) =
      overlay [] set.files (FileSystem.entryAt? bare) below := by
    intro below
    have hDrop : (dir ++ [last] ++ below).drop (dir.length + 1) =
        below := by
      simp [List.drop_append]
    rw [hEntries, if_pos (List.prefix_append _ _), hDrop,
      hStaged.entryAt?_append]
  have hDirectory : fs'.entryAt? (dir ++ [last]) = some .directory := by
    have hHere := hBelow []
    rw [List.append_nil] at hHere
    rw [hHere]
    refine overlay_of_some (entryAt?_bare []) fun file hFile hNil => ?_
    rcases (hStaged.of_mem hFile).1.exists_names with
      ⟨init, name, hNames⟩
    simp [hNames] at hNil
  exact ⟨fs', hWrite, (h.lies.mono hKeeps).leadsTo hDirectory, hBelow⟩

end Creation

end Bindery

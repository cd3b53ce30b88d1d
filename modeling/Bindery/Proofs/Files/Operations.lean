import Bindery.Proofs.Files.Ancestor
import Bindery.Proofs.Files.Resolution

/-
  This file says what the operations on files need to succeed
  and what they change then.

  Key definitions include:
    * `FileSystem.LeadsTo`
    * `FileSystem.LiesIn`

  Key theorems include:
    * `FileSystem.resolve_eq_present_iff_leadsTo`
    * `FileSystem.makeDirectory_eq_ok_iff`
    * `FileSystem.writeFile_eq_ok_iff`
    * `FileSystem.rename_eq_ok`
    * `FileSystem.rename_of_moved`
-/

namespace Bindery

/- A sequence succeeds if both of its parts do. -/
theorem bind_eq_ok_iff
    {ε α β : Type}
    {first : Except ε α}
    {next : α → Except ε β}
    {b : β} :
    first >>= next = .ok b ↔ ∃ a, first = .ok a ∧ next a = .ok b := by
  cases first with
  | error e => simp [bind, Except.bind]
  | ok a => simp [bind, Except.bind]

namespace FileSystem

open Bindery.Path (Step)

variable {fs fs' : FileSystem} {path : String}

------------------------------------------------------------
-- Paths to Directories
------------------------------------------------------------

/- A path leads to a directory. -/
def LeadsTo (fs : FileSystem) (path : String) (loc : Location) : Prop :=
  fs.Leads maxLinks (startOf fs.home path) (Path.moves path) loc

theorem leadsTo_iff_steps {loc : Location} :
    fs.LeadsTo path loc ↔
      fs.Leads maxLinks (startOf fs.home path) (Path.steps path)
        loc :=
  ⟨fun h => h.of_moving_eq (by simp),
    fun h => h.of_moving_eq (by simp)⟩

theorem leadsTo_iff_fullSteps {loc : Location} :
    fs.LeadsTo path loc ↔
      fs.Leads maxLinks (startOf fs.home path) (fullSteps path)
        loc := by
  have hMoves : Path.moving (fullSteps path) = Path.moves path := by
    unfold fullSteps
    split <;> simp
  exact ⟨fun h => h.of_moving_eq (by simp [hMoves]),
    fun h => h.of_moving_eq (by simp [hMoves])⟩

namespace LeadsTo

variable {loc : Location}

theorem directory (h : fs.LeadsTo path loc) :
    fs.entryAt? loc = some .directory :=
  Leads.directory h

theorem unique
    {other : Location}
    (h : fs.LeadsTo path loc)
    (hOther : fs.LeadsTo path other) :
    loc = other :=
  Leads.unique h hOther

theorem mono
    (h : fs.LeadsTo path loc)
    (hKeeps : Keeps fs fs') :
    fs'.LeadsTo path loc := by
  unfold LeadsTo
  rw [hKeeps.home]
  exact Leads.mono h hKeeps

end LeadsTo

------------------------------------------------------------
-- Looking
------------------------------------------------------------

theorem resolve_eq_ok_iff {found : Found} :
    fs.resolve path = .ok found ↔
      checkPath path = .ok () ∧
        fs.walk true maxLinks (startOf fs.home path)
          (fullSteps path) = .ok found := by
  unfold resolve
  rw [bind_eq_ok_iff]
  exact ⟨fun ⟨⟨⟩, hCheck, hWalk⟩ => ⟨hCheck, hWalk⟩,
    fun ⟨hCheck, hWalk⟩ => ⟨(), hCheck, hWalk⟩⟩

theorem locate_eq_ok_iff {loc : Location} :
    fs.locate path = .ok loc ↔
      fs.resolve path = .ok (.present loc) := by
  unfold locate
  rw [bind_eq_ok_iff]
  constructor
  · rintro ⟨found, hFound, h⟩
    cases found with
    | present other =>
        have hEq : other = loc := by simpa using h
        subst hEq
        exact hFound
    | missing dir name => simp at h
  · intro h
    exact ⟨.present loc, h, rfl⟩

theorem stat_eq_ok_iff {node : Node} :
    fs.stat path = .ok node ↔
      ∃ loc, fs.resolve path = .ok (.present loc) ∧
        fs.at? loc = some node := by
  unfold stat
  rw [bind_eq_ok_iff]
  constructor
  · rintro ⟨loc, hLoc, h⟩
    cases hNode : fs.at? loc with
    | none => simp [hNode] at h
    | some other =>
        have hEq : other = node := by simpa [hNode] using h
        subst hEq
        exact ⟨loc, locate_eq_ok_iff.mp hLoc, hNode⟩
  · rintro ⟨loc, hLoc, hNode⟩
    exact ⟨loc, locate_eq_ok_iff.mpr hLoc, by simp [hNode]⟩

theorem resolve_eq_present_iff_leadsTo
    {loc : Location}
    (hLoc : fs.entryAt? loc = some .directory) :
    fs.resolve path = .ok (.present loc) ↔
      checkPath path = .ok () ∧ fs.LeadsTo path loc := by
  rw [resolve_eq_ok_iff, leadsTo_iff_fullSteps, leads_iff_walk]
  simp [hLoc]

theorem isDirectory_iff :
    fs.isDirectory path = true ↔
      checkPath path = .ok () ∧ ∃ loc, fs.LeadsTo path loc := by
  unfold isDirectory
  constructor
  · intro h
    cases hStat : fs.stat path with
    | error e => simp [hStat] at h
    | ok node =>
        rcases stat_eq_ok_iff.mp hStat with ⟨loc, hResolve, hNode⟩
        have hLoc : fs.entryAt? loc = some .directory := by
          cases node with
          | directory entries =>
              exact entryAt?_eq_directory_iff.mpr ⟨entries, hNode⟩
          | file content => simp [hStat, Node.isDirectory] at h
          | link target => simp [hStat, Node.isDirectory] at h
        rcases (resolve_eq_present_iff_leadsTo hLoc).mp hResolve with
          ⟨hCheck, hLeads⟩
        exact ⟨hCheck, loc, hLeads⟩
  · rintro ⟨hCheck, loc, hLeads⟩
    have hLoc := hLeads.directory
    rcases entryAt?_eq_directory_iff.mp hLoc with ⟨entries, hNode⟩
    have hStat : fs.stat path = .ok (.directory entries) :=
      stat_eq_ok_iff.mpr
        ⟨loc, (resolve_eq_present_iff_leadsTo hLoc).mpr
          ⟨hCheck, hLeads⟩, hNode⟩
    simp [hStat, Node.isDirectory]

theorem exists?_iff :
    fs.exists? path = true ↔
      ∃ loc, fs.resolve path = .ok (.present loc) ∧
        fs.entryAt? loc ≠ none := by
  unfold exists?
  constructor
  · intro h
    cases hStat : fs.stat path with
    | error e => simp [hStat] at h
    | ok node =>
        rcases stat_eq_ok_iff.mp hStat with ⟨loc, hResolve, hNode⟩
        exact ⟨loc, hResolve, by simp [entryAt?_eq_map_at?, hNode]⟩
  · rintro ⟨loc, hResolve, hLoc⟩
    cases hNode : fs.at? loc with
    | none => simp [entryAt?_eq_map_at?, hNode] at hLoc
    | some node =>
        simp [stat_eq_ok_iff.mpr ⟨loc, hResolve, hNode⟩]

theorem ne_empty_of_checkPath (h : checkPath path = .ok ()) :
    path ≠ "" := by
  rintro rfl
  simp [checkPath] at h

theorem ne_empty_of_exists?
    (h : fs.exists? path = true) :
    path ≠ "" := by
  rcases exists?_iff.mp h with ⟨loc, hResolve, -⟩
  exact ne_empty_of_checkPath (resolve_eq_ok_iff.mp hResolve).1

theorem exists?_of_isDirectory
    (h : fs.isDirectory path = true) :
    fs.exists? path = true := by
  rcases isDirectory_iff.mp h with ⟨hCheck, loc, hLeads⟩
  refine exists?_iff.mpr ⟨loc, ?_, by simp [hLeads.directory]⟩
  exact (resolve_eq_present_iff_leadsTo hLeads.directory).mpr
    ⟨hCheck, hLeads⟩

/- A directory that can be listed is led to by its path. -/
theorem listDirectory_eq_ok
    {names : List String}
    (h : fs.listDirectory path = .ok names) :
    ∃ loc, checkPath path = .ok () ∧ fs.LeadsTo path loc ∧
      ∀ name, fs.entryAt? (loc ++ [name]) ≠ none → name ∈ names := by
  unfold listDirectory at h
  rcases bind_eq_ok_iff.mp h with ⟨node, hStat, h⟩
  rcases stat_eq_ok_iff.mp hStat with ⟨loc, hResolve, hNode⟩
  cases node with
  | file content => simp at h
  | link target => simp at h
  | directory entries =>
      have hEq : Keyed.keys entries = names := by simpa using h
      subst hEq
      rcases
          (resolve_eq_present_iff_leadsTo
            (entryAt?_eq_directory_iff.mpr
              ⟨entries, hNode⟩)).mp hResolve with
        ⟨hCheck, hLeads⟩
      refine ⟨loc, hCheck, hLeads, fun name hName => ?_⟩
      rw [entryAt?_snoc hNode] at hName
      cases hChild : Keyed.get? name entries with
      | none => simp [hChild] at hName
      | some child => exact Keyed.mem_keys_of_get? hChild

theorem listDirectory_of_leadsTo
    {loc : Location}
    (hCheck : checkPath path = .ok ())
    (h : fs.LeadsTo path loc) :
    ∃ names, fs.listDirectory path = .ok names := by
  rcases entryAt?_eq_directory_iff.mp h.directory with ⟨entries, hNode⟩
  have hStat : fs.stat path = .ok (.directory entries) :=
    stat_eq_ok_iff.mpr
      ⟨loc, (resolve_eq_present_iff_leadsTo h.directory).mpr
        ⟨hCheck, h⟩, hNode⟩
  exact ⟨Keyed.keys entries, by simp [listDirectory, hStat, bind,
    Except.bind]⟩

------------------------------------------------------------
-- The Last Name of a Path
------------------------------------------------------------

/- The way along a path enters a name in a directory last. -/
structure LiesIn
    (fs : FileSystem)
    (path : String)
    (dir : Location)
    (name : String) : Prop where
  fits : FitsName name
  way : ∃ init, Path.steps path = init ++ [.enter name] ∧
    fs.Leads maxLinks (startOf fs.home path) init dir

namespace LiesIn

variable {dir : Location} {name : String}

theorem directory (h : fs.LiesIn path dir name) :
    fs.entryAt? dir = some .directory := by
  rcases h.way with ⟨init, -, hLeads⟩
  exact hLeads.directory

theorem mono
    (h : fs.LiesIn path dir name)
    (hKeeps : Keeps fs fs') :
    fs'.LiesIn path dir name where
  fits := h.fits
  way := by
    rcases h.way with ⟨init, hSteps, hLeads⟩
    rw [hKeeps.home]
    exact ⟨init, hSteps, hLeads.mono hKeeps⟩

theorem getLast?_steps (h : fs.LiesIn path dir name) :
    (Path.steps path).getLast? = some (.enter name) := by
  rcases h.way with ⟨init, hSteps, -⟩
  simp [hSteps]

/- The names of a path whose last name lies somewhere fit. -/
theorem fitsName
    (h : fs.LiesIn path dir name) :
    ∀ n ∈ Path.names path, FitsName n := by
  intro n hn
  rcases h.way with ⟨init, hSteps, hLeads⟩
  rw [Path.names_of_steps hSteps] at hn
  rcases List.mem_append.mp hn with hInit | hLast
  · exact hLeads.fitsName (Path.mem_filterMap_name?_iff.mp hInit)
  · rw [List.mem_singleton.mp hLast]
    exact h.fits

/- If there is a directory of that name, the path leads to it. -/
theorem leadsTo
    (h : fs.LiesIn path dir name)
    (hChild : fs.entryAt? (dir ++ [name]) = some .directory) :
    fs.LeadsTo path (dir ++ [name]) := by
  rcases h.way with ⟨init, hSteps, hLeads⟩
  rw [leadsTo_iff_steps, hSteps]
  exact hLeads.snoc h.fits hChild

/- A path ends in one name in one directory. -/
theorem unique
    {other : Location}
    {last : String}
    (h : fs.LiesIn path dir name)
    (hOther : fs.LiesIn path other last) :
    dir = other ∧ name = last := by
  rcases h.way with ⟨init, hSteps, hLeads⟩
  rcases hOther.way with ⟨rest, hRest, hOtherLeads⟩
  rcases List.append_inj' (hSteps.symm.trans hRest) rfl with
    ⟨rfl, hLast⟩
  exact ⟨hLeads.unique hOtherLeads, by simpa using hLast⟩

end LiesIn

/- The names of a path that leads to a directory fit. -/
theorem LeadsTo.fitsName
    {loc : Location}
    (h : fs.LeadsTo path loc) :
    ∀ n ∈ Path.names path, FitsName n := by
  intro n hn
  rw [Path.names_eq_filterMap_moves] at hn
  exact Leads.fitsName h (Path.mem_filterMap_name?_iff.mp hn)

theorem resolveParent_eq_ok_iff
    {dir : Location}
    {last : Option Step} :
    fs.resolveParent path = .ok (dir, last) ↔
      checkPath path = .ok () ∧
        fs.Leads maxLinks (startOf fs.home path)
          (Path.steps path).dropLast dir ∧
        (Path.steps path).getLast? = last := by
  unfold resolveParent
  rw [bind_eq_ok_iff]
  constructor
  · rintro ⟨⟨⟩, hCheck, h⟩
    rcases bind_eq_ok_iff.mp h with ⟨found, hWalk, h⟩
    cases found with
    | missing other name => simp at h
    | present other =>
        simp only [isDirectoryAt_iff] at h
        split at h
        · rename_i hOther
          have hBoth :
              other = dir ∧ (Path.steps path).getLast? = last := by
            simpa using h
          rcases hBoth with ⟨rfl, hLast⟩
          exact ⟨hCheck, leads_of_walk hWalk hOther, hLast⟩
        · simp at h
  · rintro ⟨hCheck, hLeads, hLast⟩
    refine ⟨(), hCheck, bind_eq_ok_iff.mpr ⟨_, hLeads.walk, ?_⟩⟩
    simp [isDirectoryAt_iff, hLeads.directory, hLast]

/- A name that is last on the way, with the directory before it. -/
theorem resolveParent_eq_enter_iff
    {dir : Location}
    {name : String}
    (hFits : FitsName name) :
    fs.resolveParent path = .ok (dir, some (.enter name)) ↔
      checkPath path = .ok () ∧ fs.LiesIn path dir name := by
  rw [resolveParent_eq_ok_iff]
  constructor
  · rintro ⟨hCheck, hLeads, hLast⟩
    refine ⟨hCheck, hFits, (Path.steps path).dropLast, ?_, hLeads⟩
    rcases List.getLast?_eq_some_iff.mp hLast with ⟨init, hSteps⟩
    simp [hSteps]
  · rintro ⟨hCheck, hLies⟩
    rcases hLies.way with ⟨init, hSteps, hLeads⟩
    exact ⟨hCheck, by simpa [hSteps] using hLeads, by simp [hSteps]⟩

------------------------------------------------------------
-- Creating and Writing
------------------------------------------------------------

/- A directory is created where nothing was. -/
theorem makeDirectory_eq_ok_iff :
    fs.makeDirectory path = .ok fs' ↔
      checkPath path = .ok () ∧
        ∃ dir name, fs.LiesIn path dir name ∧
          fs.entryAt? (dir ++ [name]) = none ∧
          fs' = fs.put (dir ++ [name]) (.directory []) := by
  unfold makeDirectory
  rw [bind_eq_ok_iff]
  constructor
  · rintro ⟨⟨dir, last⟩, hParent, h⟩
    cases last with
    | none => simp at h
    | some step =>
        cases step with
        | stay => simp at h
        | up => simp at h
        | enter name =>
            simp only at h
            split at h
            · simp at h
            rename_i hFits
            split at h
            · simp at h
            rename_i hNone
            rcases
                (resolveParent_eq_enter_iff
                  (Nat.not_lt.mp hFits)).mp hParent with
              ⟨hCheck, hLies⟩
            refine ⟨hCheck, dir, name, hLies, ?_, ?_⟩
            · simpa [entryAt?_eq_none_iff] using hNone
            · simpa using h.symm
  · rintro ⟨hCheck, dir, name, hLies, hNone, rfl⟩
    refine ⟨_, (resolveParent_eq_enter_iff hLies.fits).mpr
      ⟨hCheck, hLies⟩, ?_⟩
    have hNot : ¬ maxNameLength < Text.byteLength name.toList :=
      Nat.not_lt.mpr hLies.fits
    simp [hNot, entryAt?_eq_none_iff.mp hNone]

/- Creating a directory misses nothing but what is above it. -/
theorem makeDirectory_eq_notFound_iff :
    fs.makeDirectory path = .error .notFound ↔
      fs.resolveParent path = .error .notFound := by
  unfold makeDirectory
  cases hParent : fs.resolveParent path with
  | error cause => simp [bind, Except.bind]
  | ok parent =>
      rcases parent with ⟨dir, last⟩
      simp only [bind, Except.bind]
      split
      · split
        · simp
        · split <;> simp
      · simp

theorem checkPath_eq_ok_iff :
    checkPath path = .ok () ↔
      '\x00' ∉ path.toList ∧ path ≠ "" ∧
        Text.byteLength path.toList ≤ maxPathLength := by
  unfold checkPath
  split
  · rename_i hNul
    simp at hNul
    simp [hNul]
  rename_i hNul
  split
  · rename_i hEmpty
    simp at hEmpty
    simp [hEmpty]
  rename_i hNe
  split
  · simp
    omega
  · simp at hNul hNe
    simp only [true_iff]
    exact ⟨hNul, hNe, by omega⟩

/- A path is not refused if one with more in it is not. -/
theorem checkPath_of_sublist
    {part : String}
    (hNe : part ≠ "")
    (hPart : part.toList.Sublist path.toList)
    (h : checkPath path = .ok ()) :
    checkPath part = .ok () := by
  rcases checkPath_eq_ok_iff.mp h with ⟨hNul, -, hLength⟩
  refine checkPath_eq_ok_iff.mpr
    ⟨fun hMem => hNul (hPart.subset hMem), hNe, ?_⟩
  exact Nat.le_trans (Text.byteLength_le_of_sublist hPart) hLength

/- The limits of the system for a path below another one. -/
theorem checkPath_join
    {root other path : String}
    (hRoot : checkPath root = .ok ())
    (hOther : other ≠ "")
    (hRelative : Path.isAbsolute path = false)
    (hCheck : checkPath (Path.join other path) = .ok ())
    (hLength : Text.byteLength (Path.join root path).toList ≤
      maxPathLength) :
    checkPath (Path.join root path) = .ok () := by
  have hRootNe := ne_empty_of_checkPath hRoot
  refine checkPath_eq_ok_iff.mpr
    ⟨?_, Path.join_ne_empty hRootNe hRelative, hLength⟩
  have hNoNul := (checkPath_eq_ok_iff.mp hRoot).1
  have hOtherNoNul := (checkPath_eq_ok_iff.mp hCheck).1
  have hPath : '\x00' ∉ path.toList := by
    rcases Path.exists_stem hOther with ⟨stem, -, hJoin⟩
    rw [hJoin path hRelative] at hOtherNoNul
    simp only [List.mem_append, List.mem_cons, not_or] at hOtherNoNul
    exact hOtherNoNul.2.2
  rcases Path.exists_stem hRootNe with ⟨stem, hStem, hJoin⟩
  rw [hJoin path hRelative]
  simp only [List.mem_append, List.mem_cons, not_or]
  exact ⟨fun hMem => hNoNul (hStem.subset hMem), by decide, hPath⟩

theorem checkPath_ne_notFound (hNe : path ≠ "") :
    checkPath path ≠ .error .notFound := by
  unfold checkPath
  split
  · simp
  · rw [if_neg (by simpa using hNe)]
    split <;> simp

/- A directory that is there is not what is missing. -/
theorem resolveParent_ne_notFound
    {dir : Location}
    (hNe : path ≠ "")
    (h : fs.Leads maxLinks (startOf fs.home path)
      (Path.steps path).dropLast dir) :
    fs.resolveParent path ≠ .error .notFound := by
  cases hCheck : checkPath path with
  | ok u =>
      rw [resolveParent_eq_ok_iff.mpr ⟨hCheck, h, rfl⟩]
      simp
  | error cause =>
      have hCause := checkPath_ne_notFound hNe
      rw [hCheck] at hCause
      unfold resolveParent
      simpa [hCheck, bind, Except.bind] using hCause

/- What a path leads to cannot be created once more. -/
theorem makeDirectory_of_leadsTo
    {loc : Location}
    (hNe : path ≠ "")
    (h : fs.LeadsTo path loc) :
    ∃ cause, fs.makeDirectory path = .error cause ∧
      cause ≠ .notFound := by
  have hLeads := leadsTo_iff_steps.mp h
  cases hMake : fs.makeDirectory path with
  | ok fs' =>
      rcases makeDirectory_eq_ok_iff.mp hMake with
        ⟨-, dir, name, hLies, hNone, -⟩
      rcases hLies.way with ⟨init, hSteps, hInit⟩
      rcases hInit.walk_append with ⟨left, hLeft⟩
      have hWalk := hLeads.walk
      rw [hSteps, hLeft, walk_enter, if_pos hInit.directory,
        if_pos hLies.fits, hNone] at hWalk
      simp at hWalk
  | error cause =>
      refine ⟨cause, rfl, ?_⟩
      rintro rfl
      have hAbove : ∃ dir, fs.Leads maxLinks (startOf fs.home path)
          (Path.steps path).dropLast dir := by
        rcases List.eq_nil_or_concat (Path.steps path) with
          hSteps | ⟨init, step, hSteps⟩
        · rw [hSteps] at hLeads ⊢
          exact ⟨loc, hLeads⟩
        · rw [hSteps, List.concat_eq_append] at hLeads ⊢
          simpa using hLeads.exists_of_append
      rcases hAbove with ⟨dir, hDir⟩
      exact resolveParent_ne_notFound hNe hDir
        (makeDirectory_eq_notFound_iff.mp hMake)

/- Whether the last name of a path is that of a link. -/
def EndsAtLink (fs : FileSystem) (path : String) : Prop :=
  ∃ dir name target, fs.LiesIn path dir name ∧
    fs.entryAt? (dir ++ [name]) = some (.link target)

/- The last name of a path that can be resolved lies in a directory. -/
theorem LiesIn.walk_fullSteps
    {dir : Location}
    {name : String}
    (h : fs.LiesIn path dir name)
    (hSlash : Path.endsInSlash path = false) :
    ∃ left, fs.walk true maxLinks (startOf fs.home path)
      (fullSteps path) = fs.walk true left dir [.enter name] := by
  rcases h.way with ⟨init, hSteps, hLeads⟩
  rcases hLeads.walk_append with ⟨left, hLeft⟩
  refine ⟨left, ?_⟩
  simpa [fullSteps, hSlash, hSteps] using hLeft [.enter name]

/- Only a name at its end lets a path lead to no directory. -/
theorem exists_liesIn_of_resolve
    {found : Found}
    (hSlash : Path.endsInSlash path = false)
    (hResolve : fs.resolve path = .ok found)
    (hFound : ∀ loc, found = .present loc →
      fs.entryAt? loc ≠ some .directory) :
    ∃ dir name, fs.LiesIn path dir name := by
  rcases resolve_eq_ok_iff.mp hResolve with ⟨hCheck, hWalk⟩
  have hNe := Path.steps_ne_nil_of_endsInSlash
    (ne_empty_of_checkPath hCheck) hSlash
  have hSplit :
      ∃ init step, Path.steps path = init ++ [step] :=
    ⟨_, _, (List.dropLast_concat_getLast hNe).symm⟩
  rcases hSplit with ⟨init, step, hSteps⟩
  simp only [fullSteps, hSlash, hSteps] at hWalk
  rw [if_neg (by simp), List.append_nil] at hWalk
  rcases exists_leads_of_walk_append (by simp) hWalk with ⟨dir, hLeads⟩
  rcases hLeads.walk_append with ⟨left, hLeft⟩
  rw [hLeft] at hWalk
  have hDir := hLeads.directory
  cases step with
  | stay =>
      rw [walk_stay, if_pos hDir, walk_nil] at hWalk
      exact absurd hDir (hFound dir (by simpa using hWalk.symm))
  | up =>
      rw [walk_up, if_pos hDir, walk_nil] at hWalk
      exact absurd (directory_above (List.dropLast_prefix dir) hDir)
        (hFound dir.dropLast (by simpa using hWalk.symm))
  | enter name =>
      rw [walk_enter, if_pos hDir] at hWalk
      split at hWalk
      · rename_i hFits
        exact ⟨dir, name, hFits, init, hSteps, hLeads⟩
      · simp at hWalk

/- Where the name at the end of a path is found. -/
theorem LiesIn.resolve_eq_ok_iff
    {dir : Location}
    {name : String}
    {found : Found}
    (h : fs.LiesIn path dir name)
    (hSlash : Path.endsInSlash path = false)
    (hLink : ∀ target,
      fs.entryAt? (dir ++ [name]) ≠ some (.link target)) :
    fs.resolve path = .ok found ↔
      checkPath path = .ok () ∧
        found = if fs.entryAt? (dir ++ [name]) = none
          then .missing dir name else .present (dir ++ [name]) := by
  rcases h.walk_fullSteps hSlash with ⟨left, hLeft⟩
  rw [FileSystem.resolve_eq_ok_iff, hLeft, walk_enter,
    if_pos h.directory, if_pos h.fits]
  cases hEntry : fs.entryAt? (dir ++ [name]) with
  | none => simp [eq_comm]
  | some e =>
      cases e with
      | link target => exact absurd hEntry (hLink target)
      | directory => simp [walk_nil, eq_comm]
      | file content => simp [walk_nil, eq_comm]

/- Whether the name at the end of a path is there. -/
theorem LiesIn.exists?_iff
    {dir : Location}
    {name : String}
    (h : fs.LiesIn path dir name)
    (hCheck : checkPath path = .ok ())
    (hSlash : Path.endsInSlash path = false)
    (hLink : ∀ target,
      fs.entryAt? (dir ++ [name]) ≠ some (.link target)) :
    fs.exists? path = true ↔ fs.entryAt? (dir ++ [name]) ≠ none := by
  rw [FileSystem.exists?_iff]
  constructor
  · rintro ⟨loc, hResolve, hLoc⟩
    rcases (h.resolve_eq_ok_iff hSlash hLink).mp hResolve with
      ⟨-, hFound⟩
    split at hFound
    · simp at hFound
    · assumption
  · intro hSome
    refine ⟨dir ++ [name], ?_, hSome⟩
    exact (h.resolve_eq_ok_iff hSlash hLink).mpr
      ⟨hCheck, by rw [if_neg hSome]⟩

theorem LiesIn.isDirectory_iff
    {dir : Location}
    {name : String}
    (h : fs.LiesIn path dir name)
    (hCheck : checkPath path = .ok ())
    (hSlash : Path.endsInSlash path = false)
    (hLink : ∀ target,
      fs.entryAt? (dir ++ [name]) ≠ some (.link target)) :
    fs.isDirectory path = true ↔
      fs.entryAt? (dir ++ [name]) = some .directory := by
  rw [FileSystem.isDirectory_iff]
  constructor
  · rintro ⟨-, loc, hLeads⟩
    have hLoc := hLeads.directory
    have hResolve :=
      (resolve_eq_present_iff_leadsTo hLoc).mpr ⟨hCheck, hLeads⟩
    rcases (h.resolve_eq_ok_iff hSlash hLink).mp hResolve with
      ⟨-, hFound⟩
    split at hFound
    · simp at hFound
    · have hEq : loc = dir ++ [name] := by simpa using hFound
      subst hEq
      exact hLoc
  · intro hDirectory
    refine ⟨hCheck, dir ++ [name], ?_⟩
    refine ((resolve_eq_present_iff_leadsTo hDirectory).mp ?_).2
    exact (h.resolve_eq_ok_iff hSlash hLink).mpr
      ⟨hCheck, by rw [if_neg (by simp [hDirectory])]⟩

/- A file is written where there is no directory. -/
theorem writeFile_eq_ok_iff
    {content : ByteArray}
    (hLink : ¬ fs.EndsAtLink path) :
    fs.writeFile path content = .ok fs' ↔
      Path.endsInSlash path = false ∧ checkPath path = .ok () ∧
        ∃ dir name, fs.LiesIn path dir name ∧
          fs.entryAt? (dir ++ [name]) ≠ some .directory ∧
          fs' = fs.put (dir ++ [name]) (.file content) := by
  have hTarget : ∀ {dir name}, fs.LiesIn path dir name →
      ∀ target, fs.entryAt? (dir ++ [name]) ≠ some (.link target) :=
    fun hLies target h => hLink ⟨_, _, target, hLies, h⟩
  unfold writeFile
  constructor
  · intro h
    split at h
    · rcases bind_eq_ok_iff.mp h with ⟨-, -, h⟩
      simp at h
    rename_i hSlash
    have hSlash : Path.endsInSlash path = false := by
      simpa using hSlash
    rcases bind_eq_ok_iff.mp h with ⟨found, hResolve, h⟩
    have hFound : ∀ loc, found = .present loc →
        fs.entryAt? loc ≠ some .directory := by
      rintro loc rfl hLoc
      simp [isDirectoryAt_iff, hLoc] at h
    rcases exists_liesIn_of_resolve hSlash hResolve hFound with
      ⟨dir, name, hLies⟩
    rcases
        (hLies.resolve_eq_ok_iff hSlash (hTarget hLies)).mp hResolve with
      ⟨hCheck, hEq⟩
    refine ⟨hSlash, hCheck, dir, name, hLies, ?_, ?_⟩
    · intro hDirectory
      rw [if_neg (by simp [hDirectory])] at hEq
      exact hFound _ hEq hDirectory
    · by_cases hNone : fs.entryAt? (dir ++ [name]) = none
      · rw [if_pos hNone] at hEq
        simpa [hEq] using h.symm
      · rw [if_neg hNone] at hEq
        have hNot := hFound _ hEq
        simpa [hEq, isDirectoryAt_iff, hNot] using h.symm
  · rintro ⟨hSlash, hCheck, dir, name, hLies, hNot, rfl⟩
    rw [if_neg (by simp [hSlash])]
    refine bind_eq_ok_iff.mpr ⟨_,
      (hLies.resolve_eq_ok_iff hSlash (hTarget hLies)).mpr
        ⟨hCheck, rfl⟩, ?_⟩
    by_cases hNone : fs.entryAt? (dir ++ [name]) = none
    · simp [hNone]
    · simp [hNone, isDirectoryAt_iff, hNot]

------------------------------------------------------------
-- Moving
------------------------------------------------------------

theorem entryLocation_eq_ok_iff
    {parent : Location × Option Step}
    {loc : Location} :
    entryLocation parent = .ok loc ↔
      ∃ dir name, parent = (dir, some (.enter name)) ∧
        FitsName name ∧ loc = dir ++ [name] := by
  rcases parent with ⟨dir, last⟩
  cases last with
  | none => simp [entryLocation]
  | some step =>
      cases step with
      | stay => simp [entryLocation]
      | up => simp [entryLocation]
      | enter name =>
          by_cases hFits : FitsName name
          · have hNot : ¬ maxNameLength < Text.byteLength name.toList :=
              Nat.not_lt.mpr hFits
            simp only [entryLocation, hNot, if_false, Except.ok.injEq]
            constructor
            · rintro rfl
              exact ⟨dir, name, rfl, hFits, rfl⟩
            · rintro ⟨otherDir, otherName, hEq, -, rfl⟩
              rcases Prod.mk.inj hEq with ⟨rfl, hName⟩
              have hEq : name = otherName := by simpa using hName
              subst hEq
              rfl
          · have hLong : maxNameLength < Text.byteLength name.toList :=
              Nat.not_le.mp hFits
            simp [entryLocation, hLong, hFits]

/- The place of the last name of a path. -/
theorem place_eq_ok_iff {loc : Location} :
    (∃ parent, fs.resolveParent path = .ok parent ∧
      entryLocation parent = .ok loc) ↔
      checkPath path = .ok () ∧
        ∃ dir name, fs.LiesIn path dir name ∧
          loc = dir ++ [name] := by
  constructor
  · rintro ⟨parent, hParent, hEntry⟩
    rcases entryLocation_eq_ok_iff.mp hEntry with
      ⟨dir, name, rfl, hFits, rfl⟩
    rcases (resolveParent_eq_enter_iff hFits).mp hParent with
      ⟨hCheck, hLies⟩
    exact ⟨hCheck, dir, name, hLies, rfl⟩
  · rintro ⟨hCheck, dir, name, hLies, rfl⟩
    exact ⟨_, (resolveParent_eq_enter_iff hLies.fits).mpr
        ⟨hCheck, hLies⟩,
      entryLocation_eq_ok_iff.mpr ⟨dir, name, rfl, hLies.fits, rfl⟩⟩

/-
  What a move that succeeds has found: a node in one place, and
  another place where it may go.
-/
structure Moved
    (fs : FileSystem)
    (source target : Location)
    (node : Node) : Prop where
  found : fs.at? source = some node
  apart : ¬ source <+: target
  notAbove : ¬ target <+: source
  allowed : checkReplacement node (fs.at? target) = .ok ()

/- A move that succeeds changes nothing or moves a node. -/
theorem rename_eq_ok
    {old new : String}
    (h : fs.rename old new = .ok fs') :
    ∃ oldDir oldName newDir newName,
      fs.LiesIn old oldDir oldName ∧
      fs.LiesIn new newDir newName ∧
      checkPath new = .ok () ∧
      ((oldDir ++ [oldName] = newDir ++ [newName] ∧ fs' = fs) ∨
        ∃ node,
          Moved fs (oldDir ++ [oldName]) (newDir ++ [newName]) node ∧
          fs' = (fs.remove (oldDir ++ [oldName])).put
            (newDir ++ [newName]) node) := by
  unfold rename at h
  rcases bind_eq_ok_iff.mp h with ⟨oldParent, hOld, h⟩
  rcases bind_eq_ok_iff.mp h with ⟨newParent, hNew, h⟩
  rcases bind_eq_ok_iff.mp h with ⟨source, hSource, h⟩
  rcases bind_eq_ok_iff.mp h with ⟨target, hTarget, h⟩
  rcases place_eq_ok_iff.mp ⟨_, hOld, hSource⟩ with
    ⟨-, oldDir, oldName, hOldLies, rfl⟩
  rcases place_eq_ok_iff.mp ⟨_, hNew, hTarget⟩ with
    ⟨hCheck, newDir, newName, hNewLies, rfl⟩
  refine ⟨oldDir, oldName, newDir, newName, hOldLies, hNewLies,
    hCheck, ?_⟩
  cases hNode : fs.at? (oldDir ++ [oldName]) with
  | none => simp [hNode] at h
  | some node =>
      simp only [hNode] at h
      split at h
      · simp at h
      split at h
      · rename_i hEq
        exact Or.inl ⟨hEq, by simpa using h.symm⟩
      split at h
      · simp at h
      rename_i hApart
      split at h
      · simp at h
      rename_i hNotAbove
      rcases bind_eq_ok_iff.mp h with ⟨⟨⟩, hAllowed, h⟩
      exact Or.inr ⟨node, ⟨hNode, by simpa using hApart,
        by simpa using hNotAbove, hAllowed⟩, by simpa using h.symm⟩

/- A node that may go to another place is moved there. -/
theorem rename_of_moved
    {old new : String}
    {oldDir newDir : Location}
    {oldName newName : String}
    {node : Node}
    (hOldCheck : checkPath old = .ok ())
    (hNewCheck : checkPath new = .ok ())
    (hSlash : node.isDirectory = true ∨
      Path.endsInSlash old = false ∧ Path.endsInSlash new = false)
    (hOld : fs.LiesIn old oldDir oldName)
    (hNew : fs.LiesIn new newDir newName)
    (h : Moved fs (oldDir ++ [oldName]) (newDir ++ [newName]) node) :
    fs.rename old new =
      .ok ((fs.remove (oldDir ++ [oldName])).put
        (newDir ++ [newName]) node) := by
  rcases place_eq_ok_iff.mpr ⟨hOldCheck, _, _, hOld, rfl⟩ with
    ⟨oldParent, hOldParent, hSource⟩
  rcases place_eq_ok_iff.mpr ⟨hNewCheck, _, _, hNew, rfl⟩ with
    ⟨newParent, hNewParent, hPlace⟩
  have hNe : oldDir ++ [oldName] ≠ newDir ++ [newName] := by
    intro hEq
    exact h.apart (hEq ▸ List.prefix_refl _)
  unfold rename
  simp only [hOldParent, hNewParent, hSource, hPlace, h.found,
    bind, Except.bind]
  rcases hSlash with hDirectory | ⟨hOldSlash, hNewSlash⟩
  · simp [hDirectory, hNe, h.apart, h.notAbove, h.allowed]
  · simp [hOldSlash, hNewSlash, hNe, h.apart, h.notAbove, h.allowed]

/- Moving a file to a place where there is no directory succeeds. -/
theorem rename_file
    {old new : String}
    {oldDir newDir : Location}
    {oldName newName : String}
    {content : ByteArray}
    (hOldCheck : checkPath old = .ok ())
    (hNewCheck : checkPath new = .ok ())
    (hOldSlash : Path.endsInSlash old = false)
    (hNewSlash : Path.endsInSlash new = false)
    (hOld : fs.LiesIn old oldDir oldName)
    (hNew : fs.LiesIn new newDir newName)
    (hNode : fs.at? (oldDir ++ [oldName]) = some (.file content))
    (hApart : ¬ oldDir ++ [oldName] <+: newDir ++ [newName])
    (hNotAbove : ¬ newDir ++ [newName] <+: oldDir ++ [oldName])
    (hTarget : fs.entryAt? (newDir ++ [newName]) ≠ some .directory) :
    fs.rename old new =
      .ok ((fs.remove (oldDir ++ [oldName])).put
        (newDir ++ [newName]) (.file content)) := by
  refine rename_of_moved hOldCheck hNewCheck
    (Or.inr ⟨hOldSlash, hNewSlash⟩) hOld hNew
    ⟨hNode, hApart, hNotAbove, ?_⟩
  cases hAt : fs.at? (newDir ++ [newName]) with
  | none => rfl
  | some node =>
      cases node with
      | file other => rfl
      | link target => rfl
      | directory entries =>
          exact absurd
            (entryAt?_eq_directory_iff.mpr ⟨entries, hAt⟩) hTarget

/- A place that is not below another one stays when that is removed. -/
theorem entryAt?_remove_of_apart
    {oldDir newDir : Location}
    {oldName newName : String}
    (hDir : fs.entryAt? newDir = some .directory)
    (hApart : ¬ oldDir ++ [oldName] <+: newDir ++ [newName]) :
    (fs.remove (oldDir ++ [oldName])).entryAt? newDir =
        some .directory ∧
      (fs.remove (oldDir ++ [oldName])).entryAt? (newDir ++ [newName]) =
        fs.entryAt? (newDir ++ [newName]) := by
  have hNewDir : ¬ oldDir ++ [oldName] <+: newDir :=
    fun h => hApart (h.trans (List.prefix_append _ _))
  constructor
  · rw [entryAt?_remove, if_neg hNewDir, hDir]
  · rw [entryAt?_remove, if_neg hApart]

/- What is where after a file has been moved. -/
theorem entryAt?_moveFile
    {oldDir newDir : Location}
    {oldName newName : String}
    {content : ByteArray}
    (hDir : fs.entryAt? newDir = some .directory)
    (hNode : fs.entryAt? (oldDir ++ [oldName]) = some (.file content))
    (hApart : ¬ oldDir ++ [oldName] <+: newDir ++ [newName])
    (hTarget : fs.entryAt? (newDir ++ [newName]) ≠ some .directory)
    (loc : Location) :
    ((fs.remove (oldDir ++ [oldName])).put
        (newDir ++ [newName]) (.file content)).entryAt? loc =
      if loc = newDir ++ [newName] then some (.file content)
      else if loc = oldDir ++ [oldName] then none
      else fs.entryAt? loc := by
  rcases entryAt?_remove_of_apart hDir hApart with ⟨hNewDir, hNew⟩
  rw [entryAt?_put_file hNewDir (by rwa [hNew]), entryAt?_remove]
  by_cases hOld : loc = oldDir ++ [oldName]
  · simp [hOld]
  · by_cases hBelow : oldDir ++ [oldName] <+: loc
    · have hNone : fs.entryAt? loc = none :=
        entryAt?_eq_none_of_isPrefix hBelow (Ne.symm hOld)
          (by simp [hNode])
      simp [hOld, hBelow, hNone]
    · simp [hOld, hBelow]

/- What is where after a directory has been moved. -/
theorem entryAt?_moveNode
    {oldDir newDir : Location}
    {oldName newName : String}
    {node : Node}
    (hDir : fs.entryAt? newDir = some .directory)
    (hNode : fs.at? (oldDir ++ [oldName]) = some node)
    (hApart : ¬ oldDir ++ [oldName] <+: newDir ++ [newName])
    (loc : Location) :
    ((fs.remove (oldDir ++ [oldName])).put
        (newDir ++ [newName]) node).entryAt? loc =
      if newDir ++ [newName] <+: loc then
        fs.entryAt? (oldDir ++ [oldName] ++
          loc.drop (newDir.length + 1))
      else if oldDir ++ [oldName] <+: loc then none
      else fs.entryAt? loc := by
  rcases entryAt?_remove_of_apart hDir hApart with ⟨hNewDir, -⟩
  rw [entryAt?_put hNewDir, entryAt?_remove]
  have hBelow : ∀ below,
      fs.entryAt? (oldDir ++ [oldName] ++ below) =
        node.entryAt? below := by
    intro below
    have hAt : fs.root.at? (oldDir ++ [oldName]) = some node := hNode
    rw [entryAt?, Node.entryAt?, Node.at?_append, hAt]
    rfl
  simp only [hBelow]

/- A directory can be moved beside itself, where nothing is. -/
theorem rename_directory
    {old new : String}
    {dir : Location}
    {oldName newName : String}
    (hOldCheck : checkPath old = .ok ())
    (hNewCheck : checkPath new = .ok ())
    (hOld : fs.LiesIn old dir oldName)
    (hNew : fs.LiesIn new dir newName)
    (hDirectory : fs.entryAt? (dir ++ [oldName]) = some .directory)
    (hNone : fs.entryAt? (dir ++ [newName]) = none) :
    ∃ fs', fs.rename old new = .ok fs' ∧ fs'.home = fs.home ∧
      ∀ loc, fs'.entryAt? loc =
        if dir ++ [newName] <+: loc then
          fs.entryAt? (dir ++ [oldName] ++ loc.drop (dir.length + 1))
        else if dir ++ [oldName] <+: loc then none
        else fs.entryAt? loc := by
  rcases entryAt?_eq_directory_iff.mp hDirectory with ⟨entries, hNode⟩
  have hNe : oldName ≠ newName := by
    rintro rfl
    simp [hDirectory] at hNone
  have hMoved : Moved fs (dir ++ [oldName]) (dir ++ [newName])
      (.directory entries) := by
    refine ⟨hNode, ?_, ?_, ?_⟩
    · rw [List.prefix_append_right_inj]
      simpa using hNe
    · rw [List.prefix_append_right_inj]
      simpa using hNe.symm
    · rw [entryAt?_eq_none_iff.mp hNone]
      rfl
  exact ⟨_, rename_of_moved hOldCheck hNewCheck (Or.inl rfl) hOld hNew
    hMoved, rfl, entryAt?_moveNode hNew.directory hNode hMoved.apart⟩

end FileSystem

end Bindery

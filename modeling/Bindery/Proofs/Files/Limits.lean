import Bindery.Proofs.Files.Destination

/-
  This file is about the limits of the system.  A path that is
  too long is refused whatever is there, and so is one with too
  long a name in it.  What lies below a directory is found by
  the names on the way to it, unless the path they make up is
  refused.

  Key definitions include:
    * `Path.FitsLimits`
    * `FileSystem.checkLimits`

  Key theorems include:
    * `Path.steps_joinAll`
    * `Path.join_intercalate`
    * `Path.FitsLimits.of_joinAll`
    * `FileSystem.checkLimits_eq_ok_iff`
    * `FileSystem.walk_map_enter`
    * `FileSystem.resolve_joinAll`
    * `FileSystem.readText_joinAll`
    * `FileSystem.listDirectory_joinAll`
-/

namespace Bindery

open FileSystem

------------------------------------------------------------
-- Paths Within the Limits
------------------------------------------------------------

/- Whether a path can be handed to the system, and so can its names. -/
structure Path.FitsLimits (path : String) : Prop where
  check : checkPath path = .ok ()
  names : ∀ n ∈ Path.names path, FitsName n

instance (path : String) : Decidable (Path.FitsLimits path) :=
  decidable_of_iff
    (checkPath path = .ok () ∧ ∀ n ∈ Path.names path, FitsName n)
    ⟨fun h => ⟨h.1, h.2⟩, fun h => ⟨h.check, h.names⟩⟩

/- The limits hold for the first part of a path, too. -/
theorem Path.FitsLimits.of_join
    {base path : String}
    (hBase : base ≠ "")
    (hRelative : isAbsolute path = false)
    (h : FitsLimits (join base path)) :
    FitsLimits base where
  check := checkPath_of_sublist hBase
    (prefix_join hBase hRelative).sublist h.check
  names := ((fitsName_join_iff hBase hRelative).mp h.names).1

/- Why the system refuses a path on account of its limits. -/
def FileSystem.checkLimits (path : String) : Except FileError Unit :=
  match checkPath path with
  | .error cause => .error cause
  | .ok _ =>
      if ∀ n ∈ Path.names path, FitsName n then .ok ()
      else .error .nameTooLong

theorem FileSystem.checkLimits_eq_ok_iff {path : String} :
    checkLimits path = .ok () ↔ Path.FitsLimits path := by
  unfold checkLimits
  constructor
  · intro h
    split at h
    · simp at h
    · rename_i hCheck
      split at h
      · rename_i hNames
        exact ⟨hCheck, hNames⟩
      · simp at h
  · intro h
    rw [h.check]
    exact if_pos h.names

/- Whatever is there, a path with too many bytes is refused. -/
theorem FileSystem.checkLimits_of_long
    {path : String}
    (hNul : '\x00' ∉ path.toList)
    (hLong : maxPathLength < Text.byteLength path.toList) :
    checkLimits path = .error .nameTooLong := by
  have hNe : path ≠ "" := by
    rintro rfl
    simp at hLong
  have hCheck : checkPath path = .error .nameTooLong := by
    rw [checkPath, if_neg (by simpa using hNul),
      if_neg (by simpa using hNe), if_pos hLong]
  rw [checkLimits, hCheck]

------------------------------------------------------------
-- Paths Made of Names
------------------------------------------------------------

namespace Path

section Names

variable {base : String} {names : List String}

theorem joinAll_ne_empty
    (hBase : base ≠ "")
    (hNames : ∀ name ∈ names, IsName name) :
    joinAll base names ≠ "" := by
  induction names generalizing base with
  | nil => exact hBase
  | cons name rest ih =>
      rcases List.forall_mem_cons.mp hNames with ⟨hName, hRest⟩
      exact ih (join_ne_empty hBase hName.isAbsolute) hRest

theorem isAbsolute_joinAll
    (hBase : base ≠ "")
    (hNames : ∀ name ∈ names, IsName name) :
    isAbsolute (joinAll base names) = isAbsolute base := by
  induction names generalizing base with
  | nil => rfl
  | cons name rest ih =>
      rcases List.forall_mem_cons.mp hNames with ⟨hName, hRest⟩
      exact (ih (join_ne_empty hBase hName.isAbsolute) hRest).trans
        (isAbsolute_join hBase hName.isAbsolute)

/- A path below a base goes where that goes and enters the names. -/
theorem steps_joinAll
    (hBase : base ≠ "")
    (hNames : ∀ name ∈ names, IsName name) :
    steps (joinAll base names) = steps base ++ names.map .enter := by
  induction names generalizing base with
  | nil => simp [joinAll]
  | cons name rest ih =>
      rcases List.forall_mem_cons.mp hNames with ⟨hName, hRest⟩
      have hJoin := ih (join_ne_empty hBase hName.isAbsolute) hRest
      rw [steps_join hBase hName.isAbsolute, hName.steps,
        List.append_assoc] at hJoin
      exact hJoin

theorem names_joinAll
    (hBase : base ≠ "")
    (hNames : ∀ name ∈ names, IsName name) :
    Path.names (joinAll base names) = Path.names base ++ names := by
  have hEnter : Step.name? ∘ Step.enter = some := rfl
  rw [Path.names, steps_joinAll hBase hNames, List.filterMap_append,
    List.filterMap_map, hEnter, List.filterMap_some]
  rfl

theorem endsInSlash_joinAll
    (hBase : base ≠ "")
    (hNames : ∀ name ∈ names, IsName name)
    (hSome : names ≠ []) :
    endsInSlash (joinAll base names) = false := by
  induction names generalizing base with
  | nil => exact absurd rfl hSome
  | cons name rest ih =>
      rcases List.forall_mem_cons.mp hNames with ⟨hName, hRest⟩
      by_cases hNil : rest = []
      · subst hNil
        exact hName.endsInSlash_join hBase
      · exact ih (join_ne_empty hBase hName.isAbsolute) hRest hNil

theorem joinAll_append
    (base : String)
    (names more : List String) :
    joinAll base (names ++ more) = joinAll (joinAll base names) more :=
  List.foldl_append

/- What starts with a name is relative. -/
theorem isAbsolute_append_of_isName
    {name : String}
    (hName : IsName name)
    (rest : String) :
    isAbsolute (name ++ rest) = false := by
  have hHead := isAbsolute_eq_false_iff.mp hName.isAbsolute
  rw [isAbsolute_eq_false_iff, String.toList_append]
  cases hList : name.toList with
  | nil => exact absurd hList (toList_ne_nil hName.ne_empty)
  | cons c others => simpa [hList] using hHead

/- Joining a name and what follows it one after the other. -/
theorem join_name_append
    {name rest : String}
    (base : String)
    (hName : IsName name)
    (hRest : isAbsolute rest = false) :
    join base (name ++ ("/" ++ rest)) = join (join base name) rest := by
  by_cases hBase : base = ""
  · subst hBase
    have hEmpty : ∀ path, join "" path = path := fun path => by
      simp [join]
    rw [hEmpty, hEmpty, ← String.toList_inj, hName.toList_join hRest]
    simp
  have hEmpty : base.isEmpty = false := by simpa using hBase
  have hJoin : (join base name).isEmpty = false := by
    simpa using join_ne_empty hBase hName.isAbsolute
  have hSlash : (join base name).toList.getLast? ≠ some '/' := by
    simpa [endsInSlash] using hName.endsInSlash_join hBase
  have hOuter : join (join base name) rest =
      join base name ++ ("/" ++ rest) := by
    rw [join, hRest, hJoin, if_neg (by simp), if_neg hSlash,
      String.append_assoc]
  have hAll := isAbsolute_append_of_isName hName ("/" ++ rest)
  rw [hOuter, join, join, hAll, hName.isAbsolute, hEmpty]
  split
  · rename_i h
    simp at h
  · split <;> simp only [String.append_assoc]

/- Joining a path of names is joining its names one by one. -/
theorem join_intercalate
    {name : String}
    (hBase : base ≠ "")
    (hName : IsName name)
    (hNames : ∀ name ∈ names, IsName name) :
    join base (String.intercalate "/" (name :: names)) =
      joinAll base (name :: names) := by
  induction names generalizing base name with
  | nil => simp [joinAll]
  | cons next rest ih =>
      rcases List.forall_mem_cons.mp hNames with ⟨hNext, hRest⟩
      have hSplit : ∀ (first second : String) (rest : List String),
          String.intercalate "/" (first :: second :: rest) =
            first ++ ("/" ++
              String.intercalate "/" (second :: rest)) := by
        intro first second rest
        rw [String.intercalate_cons_cons, String.append_assoc]
      have hTail : isAbsolute (String.intercalate "/" (next :: rest)) =
          false := by
        cases rest with
        | nil => simpa using hNext.isAbsolute
        | cons third others =>
            rw [hSplit]
            exact isAbsolute_append_of_isName hNext _
      rw [hSplit, join_name_append base hName hTail,
        ih (join_ne_empty hBase hName.isAbsolute) hNext hRest]
      rfl

/- All that is walked along on the way to what is below a base. -/
theorem exists_fullSteps_joinAll
    (hBase : base ≠ "")
    (hNames : ∀ name ∈ names, IsName name) :
    ∃ way, moving way = moves base ∧
      fullSteps (joinAll base names) = way ++ names.map .enter := by
  by_cases hNil : names = []
  · subst hNil
    refine ⟨fullSteps base, ?_, by simp [joinAll]⟩
    unfold fullSteps
    split <;> simp
  · refine ⟨steps base, rfl, ?_⟩
    rw [fullSteps, endsInSlash_joinAll hBase hNames hNil,
      steps_joinAll hBase hNames]
    simp

end Names

end Path

/- The limits hold for what is above a path, too. -/
theorem Path.FitsLimits.of_joinAll
    {base : String}
    {names : List String}
    (hBase : base ≠ "")
    (hNames : ∀ name ∈ names, IsName name)
    (h : FitsLimits (joinAll base names)) :
    FitsLimits base := by
  induction names generalizing base with
  | nil => exact h
  | cons name rest ih =>
      rcases List.forall_mem_cons.mp hNames with ⟨hName, hRest⟩
      exact (ih (join_ne_empty hBase hName.isAbsolute) hRest h).of_join
        hBase hName.isAbsolute

------------------------------------------------------------
-- Reading by Names
------------------------------------------------------------

namespace FileSystem

variable {fs : FileSystem} {root : String} {dir loc : Location}

/-
  Names lead to what is there, whose name must not be that of a
  link, unless one of them is too long.
-/
theorem walk_map_enter
    {links : Nat}
    {here names : Location}
    {entry : Entry}
    (hEntry : fs.entryAt? (here ++ names) = some entry)
    (hLink : ∀ target, entry ≠ .link target) :
    fs.walk true links here (names.map .enter) =
      if ∀ n ∈ names, FitsName n then .ok (.present (here ++ names))
      else .error .nameTooLong := by
  induction names generalizing here with
  | nil => simp [walk_nil]
  | cons name rest ih =>
      have hAssoc : here ++ name :: rest = here ++ [name] ++ rest := by
        simp
      have hHere : fs.entryAt? here = some .directory :=
        directory_of_append (name :: rest) (by simp)
          (by rw [hEntry]; simp)
      rw [List.map_cons, walk_enter, if_pos hHere]
      by_cases hFits : FitsName name
      · rw [hAssoc] at hEntry ⊢
        have hRest := ih hEntry
        have hChild : ∃ child, fs.entryAt? (here ++ [name]) =
            some child ∧ ∀ target, child ≠ .link target := by
          by_cases hNil : rest = []
          · subst hNil
            exact ⟨entry, by simpa using hEntry, hLink⟩
          · refine ⟨.directory, directory_of_append rest hNil
              (by rw [hEntry]; simp), by simp⟩
        rcases hChild with ⟨child, hChild, hChildLink⟩
        rw [if_pos hFits, hChild]
        cases child with
        | link target => exact absurd rfl (hChildLink target)
        | directory => simpa [hFits] using hRest
        | file content => simpa [hFits] using hRest
      · rw [if_neg hFits, if_neg]
        intro hAll
        exact hFits (hAll name (by simp))

/- What is below a directory is found unless its path is refused. -/
theorem resolve_joinAll
    {entry : Entry}
    (hRootNe : root ≠ "")
    (hRoot : fs.LeadsTo root dir)
    (hNames : ∀ name ∈ loc, Path.IsName name)
    (hEntry : fs.entryAt? (dir ++ loc) = some entry)
    (hLink : ∀ target, entry ≠ .link target) :
    fs.resolve (Path.joinAll root loc) =
      (checkLimits (Path.joinAll root loc)).map
        fun _ => .present (dir ++ loc) := by
  rcases Path.exists_fullSteps_joinAll hRootNe hNames with
    ⟨way, hWay, hSteps⟩
  have hLeads : fs.Leads maxLinks (startOf fs.home root) way dir :=
    Leads.of_moving_eq hRoot (by rw [hWay, Path.moves, Path.moving_moving])
  rcases hLeads.walk_append with ⟨left, hLeft⟩
  have hFits : (∀ n ∈ Path.names (Path.joinAll root loc), FitsName n) ↔
      ∀ n ∈ loc, FitsName n := by
    rw [Path.names_joinAll hRootNe hNames, List.forall_mem_append]
    exact and_iff_right hRoot.fitsName
  have hStart : startOf fs.home (Path.joinAll root loc) =
      startOf fs.home root :=
    startOf_eq fs (Path.isAbsolute_joinAll hRootNe hNames)
  unfold resolve checkLimits
  cases checkPath (Path.joinAll root loc) with
  | error cause => rfl
  | ok u =>
      change fs.walk true maxLinks _ _ = _
      rw [hStart, hSteps, hLeft, walk_map_enter hEntry hLink]
      simp only [hFits]
      split <;> rfl

theorem stat_joinAll
    {node : Node}
    (hRootNe : root ≠ "")
    (hRoot : fs.LeadsTo root dir)
    (hNames : ∀ name ∈ loc, Path.IsName name)
    (hNode : fs.at? (dir ++ loc) = some node)
    (hLink : ∀ target, node ≠ .link target) :
    fs.stat (Path.joinAll root loc) =
      (checkLimits (Path.joinAll root loc)).map fun _ => node := by
  have hEntry : fs.entryAt? (dir ++ loc) = some node.entry := by
    rw [entryAt?_eq_map_at?, hNode]
    rfl
  have hEntryLink : ∀ target, node.entry ≠ .link target := by
    cases node with
    | link target => exact absurd rfl (hLink target)
    | file content => simp [Node.entry]
    | directory entries => simp [Node.entry]
  rw [stat, locate,
    resolve_joinAll hRootNe hRoot hNames hEntry hEntryLink]
  cases checkLimits (Path.joinAll root loc) with
  | error cause => rfl
  | ok u => simp [Except.map, bind, Except.bind, hNode]

/- A file below a directory is read by the names on the way to it. -/
theorem readText_joinAll
    {content : ByteArray}
    (hRootNe : root ≠ "")
    (hRoot : fs.LeadsTo root dir)
    (hNames : ∀ name ∈ loc, Path.IsName name)
    (hFile : fs.entryAt? (dir ++ loc) = some (.file content)) :
    fs.readText (Path.joinAll root loc) =
      (checkLimits (Path.joinAll root loc)).bind
        fun _ => textOf content := by
  rw [readText, readBytes, stat_joinAll hRootNe hRoot hNames
    (entryAt?_eq_file_iff.mp hFile) (by simp)]
  cases checkLimits (Path.joinAll root loc) <;> rfl

/- A directory below another one is listed in the same way. -/
theorem listDirectory_joinAll
    {entries : List (String × Node)}
    (hRootNe : root ≠ "")
    (hRoot : fs.LeadsTo root dir)
    (hNames : ∀ name ∈ loc, Path.IsName name)
    (hDirectory : fs.at? (dir ++ loc) = some (.directory entries)) :
    fs.listDirectory (Path.joinAll root loc) =
      (checkLimits (Path.joinAll root loc)).map
        fun _ => Keyed.keys entries := by
  rw [listDirectory,
    stat_joinAll hRootNe hRoot hNames hDirectory (by simp)]
  cases checkLimits (Path.joinAll root loc) <;> rfl

end FileSystem

end Bindery

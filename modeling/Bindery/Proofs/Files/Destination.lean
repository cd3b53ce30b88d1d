import Bindery.Proofs.Files.Operations

/-
  This file says where paths lead: without links, where their
  steps say, and below a directory without links below it, where
  the names after the path of that directory say.

  Key definitions include:
    * `FileSystem.destination`
    * `FileSystem.NoLinksBelow`
    * `FileSystem.IsOpen`

  Key theorems include:
    * `FileSystem.LeadsTo.eq_destination`
    * `FileSystem.LiesIn.eq_destination`
    * `FileSystem.readText_of_forward`
    * `FileSystem.LiesIn.eq_below`
    * `FileSystem.makeDirectory_missing_below`
-/

namespace Bindery.FileSystem

open Bindery.Path (Step)

variable {fs fs' : FileSystem} {path : String}

------------------------------------------------------------
-- Destinations
------------------------------------------------------------

/- Where a path leads if there are no links on its way. -/
def destination (home : Location) (path : String) : Location :=
  Path.arrive (startOf home path) (Path.steps path)

theorem destination_of_forward
    {home : Location}
    (h : Path.Forward path) :
    destination home path = startOf home path ++ Path.names path :=
  Path.arrive_steps_of_forward h _

theorem startOf_eq
    {base : String}
    (fs : FileSystem)
    (h : Path.isAbsolute path = Path.isAbsolute base) :
    startOf fs.home path = startOf fs.home base := by
  simp [startOf, h]

/- What is above a path that never goes up is on the way to it. -/
theorem destination_isPrefix
    {above : String}
    (fs : FileSystem)
    (hForward : Path.Forward path)
    (hAbsolute : Path.isAbsolute above = Path.isAbsolute path)
    (hMoves : Path.moves above <+: Path.moves path) :
    destination fs.home above <+: destination fs.home path := by
  rw [destination_of_forward hForward, destination_of_forward
      (Path.forward_of_moves_isPrefix hMoves hForward),
    startOf_eq fs hAbsolute, List.prefix_append_right_inj]
  exact Path.names_isPrefix_of_moves hMoves

/- A directory at the destination of a path is where it leads. -/
theorem leadsTo_of_forward
    (hForward : Path.Forward path)
    (hFits : ∀ n ∈ Path.names path, FitsName n)
    (hDirectory : fs.entryAt? (destination fs.home path) =
      some .directory) :
    fs.LeadsTo path (destination fs.home path) := by
  rw [destination_of_forward hForward] at hDirectory ⊢
  unfold LeadsTo
  rw [Path.moves_eq_map_enter hForward]
  exact leads_map_enter hFits hDirectory

/- The root and the working directory have paths without names. -/
theorem exists_leadsTo_startOf
    (hHome : fs.entryAt? fs.home = some .directory)
    (path : String) :
    ∃ start, fs.LeadsTo start (startOf fs.home path) ∧
      Path.isAbsolute start = Path.isAbsolute path ∧
      Path.moves start = [] := by
  cases hIs : Path.isAbsolute path with
  | true =>
      refine ⟨"/", ?_, by decide, by decide⟩
      have hLeads : fs.LeadsTo "/" [] :=
        leadsTo_of_forward (by decide) (by decide)
          (directory_root hHome)
      simpa [startOf, hIs] using hLeads
  | false =>
      refine ⟨".", ?_, by decide, by decide⟩
      have hLeads : fs.LeadsTo "." fs.home :=
        leadsTo_of_forward (by decide) (by decide) hHome
      simpa [startOf, hIs] using hLeads

theorem destination_join
    {home : Location}
    {base : String}
    (hBase : base ≠ "")
    (hRelative : Path.isAbsolute path = false)
    (hForward : Path.Forward path) :
    destination home (Path.join base path) =
      destination home base ++ Path.names path := by
  unfold destination startOf
  rw [Path.isAbsolute_join hBase hRelative,
    Path.steps_join hBase hRelative, Path.arrive_append,
    Path.arrive_steps_of_forward hForward]

theorem LeadsTo.eq_destination
    {loc : Location}
    (hLinks : NoLinks fs)
    (h : fs.LeadsTo path loc) :
    loc = destination fs.home path := by
  rw [leadsTo_iff_steps] at h
  exact h.eq_arrive hLinks

theorem LiesIn.eq_destination
    {dir : Location}
    {name : String}
    (hLinks : NoLinks fs)
    (h : fs.LiesIn path dir name) :
    dir ++ [name] = destination fs.home path := by
  rcases h.way with ⟨init, hSteps, hLeads⟩
  rw [destination, hSteps, Path.arrive_append,
    ← hLeads.eq_arrive hLinks]
  rfl

/- Without links a path that can be resolved ends at its destination. -/
theorem location_of_resolve
    {found : Found}
    (hLinks : NoLinks fs)
    (h : fs.resolve path = .ok found) :
    found.location = destination fs.home path := by
  rcases resolve_eq_ok_iff.mp h with ⟨-, hWalk⟩
  rw [location_of_walk hLinks hWalk]
  unfold fullSteps destination
  split <;> simp [Path.arrive]

/- The last name of a path that never goes up, by its directory. -/
theorem liesIn_of_forward
    {dir : Location}
    {name : String}
    {init : List Step}
    (hForward : Path.Forward path)
    (hSteps : Path.steps path = init ++ [.enter name])
    (hFits : ∀ n ∈ Path.names path, FitsName n)
    (hDir : dir ++ [name] = destination fs.home path)
    (hDirectory : fs.entryAt? dir = some .directory) :
    fs.LiesIn path dir name where
  fits := hFits name (by simp [Path.names_of_steps hSteps])
  way := by
    refine ⟨init, hSteps, ?_⟩
    have hUp : .up ∉ init := fun hMem =>
      hForward (by simp [hSteps, hMem])
    have hNames := Path.names_of_steps hSteps
    rw [destination_of_forward hForward, hNames,
      ← List.append_assoc] at hDir
    rcases List.append_inj' hDir rfl with ⟨rfl, -⟩
    apply Leads.of_moving_eq (leads_map_enter
      (fun n hn => hFits n (by simp [hNames, hn])) hDirectory)
    rw [← Path.moving_eq_map_enter hUp, Path.moving_moving]

theorem textOf_toUTF8 (text : String) :
    textOf text.toUTF8 = .ok text := by
  unfold textOf String.fromUTF8?
  rw [String.toUTF8_eq_toByteArray, dif_pos text.isValidUTF8]
  rfl

theorem readText_of_stat
    {content : String}
    (h : fs.stat path = .ok (.file content.toUTF8)) :
    fs.readText path = .ok content := by
  rw [readText, readBytes, h]
  exact textOf_toUTF8 content

/- A file is read by the path whose last name it has. -/
theorem LiesIn.readText
    {content name : String}
    {dir : Location}
    (h : fs.LiesIn path dir name)
    (hSlash : Path.endsInSlash path = false)
    (hCheck : checkPath path = .ok ())
    (hFile : fs.entryAt? (dir ++ [name]) =
      some (.file content.toUTF8)) :
    fs.readText path = .ok content := by
  have hResolve := (h.resolve_eq_ok_iff hSlash
    (by rw [hFile]; simp)).mpr ⟨hCheck, rfl⟩
  rw [if_neg (by rw [hFile]; simp)] at hResolve
  exact readText_of_stat (stat_eq_ok_iff.mpr
    ⟨_, hResolve, entryAt?_eq_file_iff.mp hFile⟩)

/- A file at the destination of a path is read by that path. -/
theorem readText_of_forward
    {content : String}
    (hForward : Path.Forward path)
    (hSlash : Path.endsInSlash path = false)
    (hSteps : ∃ init name, Path.steps path = init ++ [.enter name])
    (hFits : ∀ n ∈ Path.names path, FitsName n)
    (hCheck : checkPath path = .ok ())
    (hFile : fs.entryAt? (destination fs.home path) =
      some (.file content.toUTF8)) :
    fs.readText path = .ok content := by
  rcases hSteps with ⟨init, name, hSteps⟩
  have hEnd := Path.names_of_steps hSteps
  have hPlace : destination fs.home path = _ :=
    destination_of_forward hForward
  rw [hEnd, ← List.append_assoc] at hPlace
  have hLies := liesIn_of_forward hForward hSteps hFits hPlace.symm
    (directory_of_append [name] (by simp)
      (by rw [← hPlace, hFile]; simp))
  exact hLies.readText hSlash hCheck (hPlace ▸ hFile)

/- What a path leads to in one file system it leads to in another. -/
theorem exists?_of_forward
    (hLinks : NoLinks fs)
    (hLinks' : NoLinks fs')
    (hHome : fs'.home = fs.home)
    (hForward : Path.Forward path)
    (hExists : fs'.exists? path = true)
    (hSame : fs.entryAt? (destination fs.home path) =
      fs'.entryAt? (destination fs.home path))
    (hFile : fs'.entryAt? (destination fs.home path) ≠ some .directory) :
    fs.exists? path = true := by
  rcases exists?_iff.mp hExists with ⟨loc, hResolve, hSome⟩
  have hLoc : loc = destination fs.home path := by
    rw [← hHome]
    exact location_of_resolve hLinks' hResolve
  subst hLoc
  have hSlash : Path.endsInSlash path = false := by
    by_contra hSlash
    rcases resolve_eq_ok_iff.mp hResolve with ⟨-, hWalk⟩
    rw [fullSteps, if_pos (by simpa using hSlash)] at hWalk
    rcases exists_leads_of_walk_append (by simp) hWalk with
      ⟨dir, hLeads⟩
    have hDir := (leadsTo_iff_steps.mpr hLeads).eq_destination hLinks'
    rw [hHome] at hDir
    exact hFile (hDir ▸ hLeads.directory)
  rcases exists_liesIn_of_resolve hSlash hResolve
      (by rintro loc hEq; simp at hEq; exact hEq ▸ hFile) with
    ⟨dir, name, hLies⟩
  have hDir := hLies.eq_destination hLinks'
  rw [hHome] at hDir
  rw [← hDir] at hSame hSome
  rcases hLies.way with ⟨init, hSteps, -⟩
  have hHere : fs.LiesIn path dir name := liesIn_of_forward hForward
    hSteps hLies.fitsName hDir
    (directory_of_append [name] (by simp)
      (by rw [hSame]; exact hSome))
  refine (hHere.exists?_iff (resolve_eq_ok_iff.mp hResolve).1 hSlash
    fun target => hLinks _ target).mpr ?_
  rw [hSame]
  exact hSome

------------------------------------------------------------
-- Below a Directory
------------------------------------------------------------

/- There is no link below a location. -/
def NoLinksBelow (fs : FileSystem) (loc : Location) : Prop :=
  ∀ below target, fs.entryAt? (loc ++ below) ≠ some (.link target)

theorem NoLinks.below
    (h : NoLinks fs)
    (loc : Location) :
    NoLinksBelow fs loc :=
  fun below target => h (loc ++ below) target

/- Names without links among them are walked as they stand. -/
theorem location_of_walk_names
    {links : Nat}
    {here : Location}
    {names : List String}
    {found : Found}
    (hLinks : NoLinksBelow fs here)
    (hWalk : fs.walk true links here (names.map .enter) = .ok found) :
    found.location = here ++ names := by
  have hWalks := walks_of_walk hWalk
  clear hWalk
  generalize hWay : names.map Step.enter = way at hWalks
  induction hWalks generalizing names with
  | here =>
      obtain rfl := List.map_eq_nil_iff.mp hWay
      exact (List.append_nil _).symm
  | stay _ _ _ => cases names <;> simp at hWay
  | up _ _ _ => cases names <;> simp at hWay
  | missing _ _ _ =>
      obtain rfl : names = [_] := by simpa using hWay
      rfl
  | enter _ _ _ _ _ ih =>
      rcases List.map_eq_cons_iff.mp hWay with
        ⟨name, rest, rfl, hName, hRest⟩
      obtain rfl := Step.enter.inj hName
      have hBelow := ih (fun below target => by
        rw [List.append_assoc]
        exact hLinks _ target) hRest
      simpa using hBelow
  | link _ _ hChild _ _ => exact absurd hChild (hLinks _ _)

section Below

variable {base name : String} {loc : Location}
variable {names init : List String}

/- A path that enters no names leads where its base does. -/
theorem LeadsTo.of_below_nil
    (hBase : fs.LeadsTo base loc)
    (hBelow : Path.Below base [] path) :
    fs.LeadsTo path loc := by
  unfold LeadsTo at hBase ⊢
  rw [startOf_eq fs hBelow.absolute, hBelow.moves]
  simpa using hBase

/- What lies above a path to a directory leads to one, too. -/
theorem LeadsTo.above
    {above : String}
    (h : fs.LeadsTo path loc)
    (hAbove : Path.IsAbove above path) :
    ∃ dir, fs.LeadsTo above dir := by
  rcases hAbove.moves_isPrefix with ⟨rest, hMoves⟩
  unfold LeadsTo at h ⊢
  rw [startOf_eq fs hAbove.absolute]
  rw [← hMoves] at h
  exact h.exists_of_append

/- Names below a directory lead to the directory there. -/
theorem LeadsTo.below
    (hBase : fs.LeadsTo base loc)
    (hBelow : Path.Below base names path)
    (hFits : ∀ n ∈ names, FitsName n)
    (hDirectory : fs.entryAt? (loc ++ names) = some .directory) :
    fs.LeadsTo path (loc ++ names) := by
  rcases Leads.walk_append hBase with ⟨left, hLeft⟩
  unfold LeadsTo
  rw [startOf_eq fs hBelow.absolute, hBelow.moves]
  apply leads_of_walk _ hDirectory
  rw [hLeft]
  exact (leads_map_enter hFits hDirectory).walk

/- Without links, names below a directory lead nowhere else. -/
theorem LeadsTo.eq_below
    {other : Location}
    (hBase : fs.LeadsTo base loc)
    (hLinks : NoLinksBelow fs loc)
    (hBelow : Path.Below base names path)
    (h : fs.LeadsTo path other) :
    other = loc ++ names ∧ ∀ n ∈ names, FitsName n := by
  rcases Leads.walk_append hBase with ⟨left, hLeft⟩
  unfold LeadsTo at h
  rw [startOf_eq fs hBelow.absolute, hBelow.moves] at h
  have hWalk := h.walk
  rw [hLeft] at hWalk
  refine ⟨location_of_walk_names hLinks hWalk, fun n hn => ?_⟩
  exact h.fitsName (by simp [hn])

/- The name that a path enters below a directory lies there. -/
theorem liesIn_of_entersBelow
    (hBase : fs.LeadsTo base loc)
    (hEnters : Path.EntersBelow base init name path)
    (hFits : ∀ n ∈ init ++ [name], FitsName n)
    (hDirectory : fs.entryAt? (loc ++ init) = some .directory) :
    fs.LiesIn path (loc ++ init) name where
  fits := hFits name (by simp)
  way := by
    rcases hEnters.way with ⟨way, hSteps, hWay⟩
    refine ⟨way, hSteps, ?_⟩
    rw [startOf_eq fs hEnters.absolute]
    rcases Leads.walk_append hBase with ⟨left, hLeft⟩
    refine Leads.of_moving_eq (?_ : fs.Leads _ _
      (Path.moves base ++ init.map Step.enter) _) ?_
    · apply leads_of_walk _ hDirectory
      rw [hLeft]
      exact (leads_map_enter
        (fun n hn => hFits n (by simp [hn])) hDirectory).walk
    · rw [hWay]
      simp [← hWay]

/- Without links, it lies nowhere else. -/
theorem LiesIn.eq_below
    {dir : Location}
    {other : String}
    (hBase : fs.LeadsTo base loc)
    (hLinks : NoLinksBelow fs loc)
    (hEnters : Path.EntersBelow base init name path)
    (h : fs.LiesIn path dir other) :
    dir = loc ++ init ∧ other = name ∧
      ∀ n ∈ init ++ [name], FitsName n := by
  rcases hEnters.way with ⟨way, hSteps, hWay⟩
  rcases h.way with ⟨otherWay, hOther, hLeads⟩
  rcases List.append_inj' (hSteps.symm.trans hOther) rfl with
    ⟨rfl, hName⟩
  have hEq : name = other := by simpa using hName
  subst hEq
  rw [startOf_eq fs hEnters.absolute] at hLeads
  have hMoves : fs.Leads maxLinks (startOf fs.home base)
      (Path.moves base ++ init.map Step.enter) dir :=
    hLeads.of_moving_eq (by rw [← hWay]; simp)
  rcases Leads.walk_append hBase with ⟨left, hLeft⟩
  have hWalk := hMoves.walk
  rw [hLeft] at hWalk
  refine ⟨location_of_walk_names hLinks hWalk, rfl, fun n hn => ?_⟩
  rcases List.mem_append.mp hn with hInit | hLast
  · exact hMoves.fitsName (by simp [hInit])
  · have hEq : n = name := by simpa using hLast
    subst hEq
    exact h.fits

/- Nothing but directories stands on the way to a location. -/
def IsOpen (fs : FileSystem) (loc : Location) : Prop :=
  ∀ above, above <+: loc →
    fs.entryAt? above = none ∨ fs.entryAt? above = some .directory

instance (fs : FileSystem) (loc : Location) :
    Decidable (fs.IsOpen loc) :=
  decidable_of_iff
    (∀ above ∈ loc.inits,
      fs.entryAt? above = none ∨ fs.entryAt? above = some .directory)
    (by simp only [IsOpen, List.mem_inits])

theorem IsOpen.of_isPrefix
    {above loc : Location}
    (h : fs.IsOpen loc)
    (hPrefix : above <+: loc) :
    fs.IsOpen above :=
  fun l hl => h l (hl.trans hPrefix)

/- Beyond a name that is missing in a directory nothing stands. -/
theorem isOpen_of_none
    (hLoc : fs.entryAt? loc = some .directory)
    (hNone : fs.entryAt? (loc ++ [name]) = none)
    (rest : List String) :
    fs.IsOpen (loc ++ name :: rest) := by
  intro above hAbove
  rcases List.prefix_or_prefix_of_prefix hAbove
      (List.prefix_append loc (name :: rest)) with
    hLess | ⟨below, rfl⟩
  · exact Or.inr (directory_above hLess hLoc)
  · cases below with
    | nil => exact Or.inr (by simpa using hLoc)
    | cons first others =>
        left
        rw [List.prefix_append_right_inj, List.cons_prefix_cons] at hAbove
        rw [hAbove.1, List.append_cons]
        exact entryAt?_of_isPrefix_of_none (List.prefix_append _ _) hNone

theorem isOpen_bare (loc : Location) : bare.IsOpen loc := by
  intro above _
  rw [entryAt?_bare]
  split <;> simp

/- A way along names of which one is missing ends at that name. -/
theorem walk_missing
    {links : Nat}
    {here : Location}
    {way : List Step}
    (hUp : .up ∉ way)
    (hHere : fs.entryAt? here = some .directory)
    (hFits : ∀ n ∈ way.filterMap Step.name?, FitsName n)
    (hOpen : fs.IsOpen (here ++ way.filterMap Step.name?))
    (hMissing : fs.entryAt? (here ++ way.filterMap Step.name?) = none) :
    fs.walk true links here way = .error .notFound ∨
      ∃ dir n, fs.walk true links here way = .ok (.missing dir n) := by
  induction way generalizing here with
  | nil => simp [hHere] at hMissing
  | cons step rest ih =>
      have hRest : .up ∉ rest := fun hMem => hUp (by simp [hMem])
      cases step with
      | stay =>
          rw [walk_stay, if_pos hHere]
          simp only [List.filterMap_cons, Step.name?]
            at hFits hOpen hMissing
          exact ih hRest hHere hFits hOpen hMissing
      | up => simp at hUp
      | enter n =>
          simp only [List.filterMap_cons, Step.name?]
            at hFits hOpen hMissing
          rw [walk_enter, if_pos hHere, if_pos (hFits n (by simp))]
          have hAssoc :
              here ++ n :: rest.filterMap Step.name? =
                here ++ [n] ++ rest.filterMap Step.name? := by
            simp
          rw [hAssoc] at hOpen hMissing
          rcases hOpen (here ++ [n]) (List.prefix_append _ _) with
            hNone | hDirectory
          · rw [hNone]
            by_cases hEnd : rest.isEmpty
            · exact Or.inr ⟨here, n, by simp [hEnd]⟩
            · exact Or.inl (by simp [hEnd])
          · rw [hDirectory]
            exact ih hRest hDirectory
              (fun other hOther => hFits other (by simp [hOther]))
              hOpen hMissing

theorem resolveParent_of_missing
    (hCheck : checkPath path = .ok ())
    {way : List Step}
    (hWay : (Path.steps path).dropLast = way)
    (hWalk :
      fs.walk true maxLinks (startOf fs.home path) way =
          .error .notFound ∨
        ∃ dir n, fs.walk true maxLinks (startOf fs.home path) way =
          .ok (.missing dir n)) :
    fs.resolveParent path = .error .notFound := by
  unfold resolveParent
  simp only [hCheck, hWay, bind, Except.bind]
  rcases hWalk with hError | ⟨dir, n, hMissing⟩
  · rw [hError]
  · rw [hMissing]

/- Below a base, a directory is missed if nothing else is there. -/
theorem makeDirectory_missing_below
    (hBase : fs.LeadsTo base loc)
    (hEnters : Path.EntersBelow base init name path)
    (hCheck : checkPath path = .ok ())
    (hFits : ∀ n ∈ init, FitsName n)
    (hOpen : fs.IsOpen (loc ++ init))
    (hMissing : fs.entryAt? (loc ++ init) = none) :
    fs.makeDirectory path = .error .notFound := by
  rw [makeDirectory_eq_notFound_iff]
  rcases hEnters.way with ⟨way, hSteps, hWay⟩
  apply resolveParent_of_missing hCheck (show _ = way by simp [hSteps])
  rcases List.filter_eq_append_iff.mp hWay with
    ⟨first, second, rfl, hFirst, hSecond⟩
  have hLeads : fs.Leads maxLinks (startOf fs.home path) first loc := by
    rw [startOf_eq fs hEnters.absolute]
    exact Leads.of_moving_eq hBase (hFirst.trans (by simp))
  rcases hLeads.walk_append with ⟨left, hLeft⟩
  rw [hLeft second]
  have hSecond : Path.moving second = init.map .enter := hSecond
  have hNames : second.filterMap Step.name? = init := by
    rw [← Path.filterMap_name?_moving, hSecond,
      Path.filterMap_name?_map_enter]
  have hUp : .up ∉ second := by
    intro hMem
    have hMoves : Step.up ∈ Path.moving second := by
      simp [Path.moving, hMem]
    simp [hSecond] at hMoves
  apply walk_missing hUp hBase.directory
  · rwa [hNames]
  · rwa [hNames]
  · rwa [hNames]

end Below

end Bindery.FileSystem

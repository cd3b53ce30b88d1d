import Bindery.Proofs.Files.Entry
import Bindery.Proofs.Files.Route

/-
  This file relates the resolution of paths to the entries of
  a file system.  A walk that does not fail is described step by
  step, and what is said of where it ends is shown by induction
  on these steps.  A way leads to a directory if every step of
  it can be taken; that neither depends on steps that stay nor
  changes as long as directories and links stay what they are.

  Key definitions include:
    * `FileSystem.Walks`
    * `FileSystem.Leads`
    * `FileSystem.Keeps`
    * `FileSystem.NoLinks`

  Key theorems include:
    * `FileSystem.walks_of_walk`
    * `FileSystem.leads_iff_walk`
    * `FileSystem.Leads.of_moving_eq`
    * `FileSystem.Leads.mono`
    * `FileSystem.Leads.walk_append`
    * `FileSystem.location_of_walk`
-/

namespace Bindery

/- The location at which the way along a path ends. -/
def Found.location : Found → Location
| .present loc => loc
| .missing dir name => dir ++ [name]

namespace FileSystem

open Bindery.Path (Step)

variable {fs fs' : FileSystem}

------------------------------------------------------------
-- Walking
------------------------------------------------------------

/- A name that is not too long for a directory entry. -/
def FitsName (name : String) : Prop :=
  Text.byteLength name.toList ≤ maxNameLength

instance (name : String) : Decidable (FitsName name) :=
  inferInstanceAs (Decidable (_ ≤ _))

theorem fitsName_join_iff
    {base path : String}
    (hBase : base ≠ "")
    (hRelative : Path.isAbsolute path = false) :
    (∀ n ∈ Path.names (Path.join base path), FitsName n) ↔
      (∀ n ∈ Path.names base, FitsName n) ∧
        ∀ n ∈ Path.names path, FitsName n := by
  rw [Path.names_join hBase hRelative, List.forall_mem_append]

theorem walk_nil
    (fs : FileSystem)
    (links : Nat)
    (here : Location) :
    fs.walk true links here [] = .ok (.present here) := by
  cases links <;> rfl

theorem walk_stay
    (fs : FileSystem)
    (links : Nat)
    (here : Location)
    (rest : List Step) :
    fs.walk true links here (.stay :: rest) =
      if fs.entryAt? here = some .directory then
        fs.walk true links here rest
      else .error .notDirectory := by
  cases links <;> simp [walk, walkWith, isDirectoryAt_iff]

theorem walk_up
    (fs : FileSystem)
    (links : Nat)
    (here : Location)
    (rest : List Step) :
    fs.walk true links here (.up :: rest) =
      if fs.entryAt? here = some .directory then
        fs.walk true links here.dropLast rest
      else .error .notDirectory := by
  cases links <;> simp [walk, walkWith, isDirectoryAt_iff]

/- Follow a link, if that is still allowed. -/
def follow
    (fs : FileSystem)
    (here : Location)
    (target : String)
    (rest : List Step) : Nat → Except FileError Found
| 0 => .error .tooManyLinks
| links + 1 =>
    fs.walk true links (startOf here target)
      (fullSteps target ++ rest)

/- Entering a name depends on the entries here and at the name. -/
theorem walk_enter
    (fs : FileSystem)
    (links : Nat)
    (here : Location)
    (name : String)
    (rest : List Step) :
    fs.walk true links here (.enter name :: rest) =
      if fs.entryAt? here = some .directory then
        if FitsName name then
          match fs.entryAt? (here ++ [name]) with
          | none =>
              if rest.isEmpty then .ok (.missing here name)
              else .error .notFound
          | some (.link target) =>
              fs.follow here target rest links
          | some _ => fs.walk true links (here ++ [name]) rest
        else .error .nameTooLong
      else .error .notDirectory := by
  by_cases hHere : fs.entryAt? here = some .directory
  · rcases entryAt?_eq_directory_iff.mp hHere with ⟨entries, hEntries⟩
    rw [if_pos hHere, entryAt?_snoc hEntries]
    by_cases hFits : FitsName name
    · have hNot : ¬ maxNameLength < Text.byteLength name.toList :=
        Nat.not_lt.mpr hFits
      rw [if_pos hFits]
      cases hChild : Keyed.get? name entries with
      | none =>
          cases links <;>
            simp [walk, walkWith, hEntries, hNot, hChild]
      | some child =>
          cases child <;> cases links <;>
            simp [walk, walkWith, hEntries, hNot, hChild,
              Node.entry, follow]
    · have hLong : maxNameLength < Text.byteLength name.toList :=
        Nat.not_le.mp hFits
      rw [if_neg hFits]
      cases links <;> simp [walk, walkWith, hEntries, hLong]
  · rw [if_neg hHere]
    cases hNode : fs.at? here with
    | none => cases links <;> simp [walk, walkWith, hNode]
    | some node =>
        cases node with
        | file content => cases links <;> simp [walk, walkWith, hNode]
        | link target => cases links <;> simp [walk, walkWith, hNode]
        | directory entries =>
            exact absurd (entryAt?_eq_directory_iff.mpr ⟨_, hNode⟩) hHere

------------------------------------------------------------
-- Walks That Do Not Fail
------------------------------------------------------------

/-
  A walk from a location that does not fail, following at most a
  number of links.  It goes through directories; only what its
  last step enters may be a file, or missing.
-/
inductive Walks (fs : FileSystem) :
    Nat → Location → List Step → Found → Prop where
| here {links here} :
    Walks fs links here [] (.present here)
| stay {links here rest found} :
    fs.entryAt? here = some .directory →
    Walks fs links here rest found →
    Walks fs links here (.stay :: rest) found
| up {links here rest found} :
    fs.entryAt? here = some .directory →
    Walks fs links here.dropLast rest found →
    Walks fs links here (.up :: rest) found
| missing {links here name} :
    fs.entryAt? here = some .directory →
    FitsName name →
    fs.entryAt? (here ++ [name]) = none →
    Walks fs links here [.enter name] (.missing here name)
| enter {links here name e rest found} :
    fs.entryAt? here = some .directory →
    FitsName name →
    fs.entryAt? (here ++ [name]) = some e →
    (∀ target, e ≠ .link target) →
    Walks fs links (here ++ [name]) rest found →
    Walks fs links here (.enter name :: rest) found
| link {links here name target rest found} :
    fs.entryAt? here = some .directory →
    FitsName name →
    fs.entryAt? (here ++ [name]) = some (.link target) →
    Walks fs links (startOf here target)
      (fullSteps target ++ rest) found →
    Walks fs (links + 1) here (.enter name :: rest) found

/-
  The induction over a way, given what following a link from
  it amounts to.
-/
theorem walks_of_walk_of_follow
    {links : Nat}
    {here : Location}
    {way : List Step}
    {found : Found}
    (hFollow : ∀ here target rest,
      fs.follow here target rest links = .ok found →
      ∃ left, links = left + 1 ∧
        fs.Walks left (startOf here target)
          (fullSteps target ++ rest) found)
    (hWalk : fs.walk true links here way = .ok found) :
    fs.Walks links here way found := by
  induction way generalizing here with
  | nil =>
      rw [walk_nil] at hWalk
      obtain rfl := Except.ok.inj hWalk
      exact .here
  | cons step rest ih =>
      cases step with
      | stay =>
          rw [walk_stay] at hWalk
          split at hWalk
          · rename_i hHere
            exact .stay hHere (ih hWalk)
          · simp at hWalk
      | up =>
          rw [walk_up] at hWalk
          split at hWalk
          · rename_i hHere
            exact .up hHere (ih hWalk)
          · simp at hWalk
      | enter name =>
          rw [walk_enter] at hWalk
          split at hWalk
          · rename_i hHere
            split at hWalk
            · rename_i hFits
              cases hChild : fs.entryAt? (here ++ [name]) with
              | none =>
                  rw [hChild] at hWalk
                  cases rest with
                  | nil =>
                      obtain rfl := Except.ok.inj hWalk
                      exact .missing hHere hFits hChild
                  | cons next others => simp at hWalk
              | some e =>
                  rw [hChild] at hWalk
                  cases e with
                  | link target =>
                      rcases hFollow _ _ _ hWalk with ⟨left, rfl, hLeft⟩
                      exact .link hHere hFits hChild hLeft
                  | directory =>
                      exact .enter hHere hFits hChild (by simp)
                        (ih hWalk)
                  | file content =>
                      exact .enter hHere hFits hChild (by simp)
                        (ih hWalk)
            · simp at hWalk
          · simp at hWalk

/- Walking a way without failing is such a walk. -/
theorem walks_of_walk
    {links : Nat}
    {here : Location}
    {way : List Step}
    {found : Found}
    (hWalk : fs.walk true links here way = .ok found) :
    fs.Walks links here way found := by
  induction links generalizing here way with
  | zero =>
      apply walks_of_walk_of_follow _ hWalk
      intro here target rest h
      simp [follow] at h
  | succ links ih =>
      apply walks_of_walk_of_follow _ hWalk
      intro here target rest h
      exact ⟨links, rfl, ih h⟩

------------------------------------------------------------
-- Ways to Directories
------------------------------------------------------------

/-
  A way from a location that leads to a directory, following at
  most a number of links.
-/
inductive Leads (fs : FileSystem) :
    Nat → Location → List Step → Location → Prop where
| here {links loc} :
    fs.entryAt? loc = some .directory →
    Leads fs links loc [] loc
| stay {links here rest loc} :
    fs.entryAt? here = some .directory →
    Leads fs links here rest loc →
    Leads fs links here (.stay :: rest) loc
| up {links here rest loc} :
    fs.entryAt? here = some .directory →
    Leads fs links here.dropLast rest loc →
    Leads fs links here (.up :: rest) loc
| enter {links here name rest loc} :
    fs.entryAt? here = some .directory →
    FitsName name →
    fs.entryAt? (here ++ [name]) = some .directory →
    Leads fs links (here ++ [name]) rest loc →
    Leads fs links here (.enter name :: rest) loc
| link {links here name target rest loc} :
    fs.entryAt? here = some .directory →
    FitsName name →
    fs.entryAt? (here ++ [name]) = some (.link target) →
    Leads fs links (startOf here target)
      (fullSteps target ++ rest) loc →
    Leads fs (links + 1) here (.enter name :: rest) loc

namespace Leads

variable {links : Nat} {here loc : Location} {way rest : List Step}

theorem directory_here (h : fs.Leads links here way loc) :
    fs.entryAt? here = some .directory := by
  cases h <;> assumption

theorem directory (h : fs.Leads links here way loc) :
    fs.entryAt? loc = some .directory := by
  induction h with
  | here hLoc => exact hLoc
  | stay _ _ ih => exact ih
  | up _ _ ih => exact ih
  | enter _ _ _ _ ih => exact ih
  | link _ _ _ _ ih => exact ih

/- What follows on a way that leads to a directory is walked there. -/
theorem walk_append (h : fs.Leads links here way loc) :
    ∃ left, ∀ rest, fs.walk true links here (way ++ rest) =
      fs.walk true left loc rest := by
  induction h with
  | @here links loc _ => exact ⟨links, fun rest => rfl⟩
  | stay hHere _ ih =>
      rcases ih with ⟨left, hLeft⟩
      refine ⟨left, fun rest => ?_⟩
      rw [List.cons_append, walk_stay, if_pos hHere, hLeft]
  | up hHere _ ih =>
      rcases ih with ⟨left, hLeft⟩
      refine ⟨left, fun rest => ?_⟩
      rw [List.cons_append, walk_up, if_pos hHere, hLeft]
  | enter hHere hFits hChild _ ih =>
      rcases ih with ⟨left, hLeft⟩
      refine ⟨left, fun rest => ?_⟩
      rw [List.cons_append, walk_enter, if_pos hHere, if_pos hFits,
        hChild]
      exact hLeft rest
  | link hHere hFits hChild _ ih =>
      rcases ih with ⟨left, hLeft⟩
      refine ⟨left, fun rest => ?_⟩
      rw [List.cons_append, walk_enter, if_pos hHere, if_pos hFits,
        hChild, ← hLeft rest, List.append_assoc]
      rfl

theorem walk (h : fs.Leads links here way loc) :
    fs.walk true links here way = .ok (.present loc) := by
  rcases h.walk_append with ⟨left, hLeft⟩
  simpa [walk_nil] using hLeft []

theorem unique
    {other : Location}
    (h : fs.Leads links here way loc)
    (hOther : fs.Leads links here way other) :
    loc = other := by
  have hEq := h.walk.symm.trans hOther.walk
  simpa using hEq

end Leads

/- A walk that ends at a directory is a way that leads there. -/
theorem Walks.leads
    {links : Nat}
    {here loc : Location}
    {way : List Step}
    (h : fs.Walks links here way (.present loc))
    (hLoc : fs.entryAt? loc = some .directory) :
    fs.Leads links here way loc := by
  generalize hFound : Found.present loc = found at h
  induction h with
  | here =>
      obtain rfl := Found.present.inj hFound
      exact .here hLoc
  | stay hHere _ ih => exact .stay hHere (ih hFound)
  | up hHere _ ih => exact .up hHere (ih hFound)
  | missing _ _ _ => cases hFound
  | enter hHere hFits hChild _ _ ih =>
      have hLeads := ih hFound
      exact .enter hHere hFits hLeads.directory_here hLeads
  | link hHere hFits hChild _ ih =>
      exact .link hHere hFits hChild (ih hFound)

/- A way leads to a directory if walking it ends there. -/
theorem leads_of_walk
    {links : Nat}
    {here loc : Location}
    {way : List Step}
    (hWalk : fs.walk true links here way = .ok (.present loc))
    (hLoc : fs.entryAt? loc = some .directory) :
    fs.Leads links here way loc :=
  (walks_of_walk hWalk).leads hLoc

/- What comes before more steps of a walk leads to a directory. -/
theorem Walks.exists_leads_of_append
    {links : Nat}
    {here : Location}
    {first second : List Step}
    {found : Found}
    (h : fs.Walks links here (first ++ second) found)
    (hSecond : second ≠ []) :
    ∃ dir, fs.Leads links here first dir := by
  generalize hWay : first ++ second = way at h
  induction h generalizing first with
  | here => exact absurd (List.append_eq_nil_iff.mp hWay).2 hSecond
  | stay hHere _ ih =>
      cases first with
      | nil => exact ⟨_, .here hHere⟩
      | cons step rest =>
          rcases List.cons.inj hWay with ⟨rfl, hRest⟩
          rcases ih hRest with ⟨dir, hDir⟩
          exact ⟨dir, .stay hHere hDir⟩
  | up hHere _ ih =>
      cases first with
      | nil => exact ⟨_, .here hHere⟩
      | cons step rest =>
          rcases List.cons.inj hWay with ⟨rfl, hRest⟩
          rcases ih hRest with ⟨dir, hDir⟩
          exact ⟨dir, .up hHere hDir⟩
  | missing hHere _ _ =>
      cases first with
      | nil => exact ⟨_, .here hHere⟩
      | cons step rest =>
          have hRest := (List.cons.inj hWay).2
          exact absurd (List.append_eq_nil_iff.mp hRest).2 hSecond
  | enter hHere hFits hChild _ _ ih =>
      cases first with
      | nil => exact ⟨_, .here hHere⟩
      | cons step rest =>
          rcases List.cons.inj hWay with ⟨rfl, hRest⟩
          rcases ih hRest with ⟨dir, hDir⟩
          exact ⟨dir, .enter hHere hFits hDir.directory_here hDir⟩
  | link hHere hFits hChild _ ih =>
      cases first with
      | nil => exact ⟨_, .here hHere⟩
      | cons step rest =>
          rcases List.cons.inj hWay with ⟨rfl, rfl⟩
          rcases ih (List.append_assoc _ _ _) with ⟨dir, hDir⟩
          exact ⟨dir, .link hHere hFits hChild hDir⟩

/- What comes before more steps that can be walked is a directory. -/
theorem exists_leads_of_walk_append
    {links : Nat}
    {here : Location}
    {first second : List Step}
    {found : Found}
    (hSecond : second ≠ [])
    (hWalk : fs.walk true links here (first ++ second) = .ok found) :
    ∃ dir, fs.Leads links here first dir :=
  (walks_of_walk hWalk).exists_leads_of_append hSecond

/- Walking a way and following it are the same. -/
theorem leads_iff_walk
    {links : Nat}
    {here loc : Location}
    {way : List Step} :
    fs.Leads links here way loc ↔
      fs.walk true links here way = .ok (.present loc) ∧
        fs.entryAt? loc = some .directory :=
  ⟨fun h => ⟨h.walk, h.directory⟩,
    fun h => leads_of_walk h.1 h.2⟩

namespace Leads

variable {links : Nat} {here loc : Location} {way : List Step}

/- Steps that stay do not change where a way leads. -/
theorem stays
    (h : fs.Leads links here way loc)
    {stays : List Step}
    (hStays : Path.moving stays = []) :
    fs.Leads links here (stays ++ way) loc := by
  induction stays with
  | nil => exact h
  | cons step rest ih =>
      cases step with
      | stay =>
          exact .stay h.directory_here (ih (by simpa using hStays))
      | up => simp at hStays
      | enter name => simp at hStays

/- Two ways with the same moves lead to the same directory. -/
theorem of_moving_eq
    (h : fs.Leads links here way loc)
    {other : List Step}
    (hMoves : Path.moving other = Path.moving way) :
    fs.Leads links here other loc := by
  induction h generalizing other with
  | here hLoc =>
      have hStays : Path.moving other = [] := by simpa using hMoves
      simpa using (Leads.here hLoc).stays hStays
  | stay hHere _ ih => exact ih (by simpa using hMoves)
  | up hHere hRest ih =>
      rcases Path.exists_of_moving_eq_cons (by simpa using hMoves) with
        ⟨stays, rest, rfl, hStays, hRest⟩
      exact Leads.stays (.up hHere (ih hRest)) hStays
  | enter hHere hFits hChild _ ih =>
      rcases Path.exists_of_moving_eq_cons (by simpa using hMoves) with
        ⟨stays, rest, rfl, hStays, hRest⟩
      exact Leads.stays (.enter hHere hFits hChild (ih hRest)) hStays
  | link hHere hFits hChild _ ih =>
      rcases Path.exists_of_moving_eq_cons (by simpa using hMoves) with
        ⟨stays, rest, rfl, hStays, hRest⟩
      refine Leads.stays (.link hHere hFits hChild (ih ?_)) hStays
      simp [hRest]

/- A way that leads somewhere leads to a directory before its end. -/
theorem exists_of_append
    {first second : List Step}
    (h : fs.Leads links here (first ++ second) loc) :
    ∃ middle, fs.Leads links here first middle := by
  by_cases hSecond : second = []
  · subst hSecond
    exact ⟨loc, by simpa using h⟩
  · exact exists_leads_of_walk_append hSecond h.walk

end Leads

------------------------------------------------------------
-- Changes That Keep Directories and Links
------------------------------------------------------------

/- Directories and links stay what they are. -/
structure Keeps (fs fs' : FileSystem) : Prop where
  home : fs'.home = fs.home
  directory : ∀ loc, fs.entryAt? loc = some .directory →
    fs'.entryAt? loc = some .directory
  link : ∀ loc target, fs.entryAt? loc = some (.link target) →
    fs'.entryAt? loc = some (.link target)

namespace Keeps

theorem refl (fs : FileSystem) : Keeps fs fs :=
  ⟨rfl, fun _ h => h, fun _ _ h => h⟩

theorem trans
    {fs₁ fs₂ fs₃ : FileSystem}
    (h : Keeps fs₁ fs₂)
    (h' : Keeps fs₂ fs₃) :
    Keeps fs₁ fs₃ where
  home := h'.home.trans h.home
  directory loc hLoc := h'.directory loc (h.directory loc hLoc)
  link loc target hLoc := h'.link loc target (h.link loc target hLoc)

end Keeps

/- Such a change leaves every way to a directory as it is. -/
theorem Leads.mono
    {links : Nat}
    {here loc : Location}
    {way : List Step}
    (h : fs.Leads links here way loc)
    (hKeeps : Keeps fs fs') :
    fs'.Leads links here way loc := by
  induction h with
  | here hLoc => exact .here (hKeeps.directory _ hLoc)
  | stay hHere _ ih => exact .stay (hKeeps.directory _ hHere) ih
  | up hHere _ ih => exact .up (hKeeps.directory _ hHere) ih
  | enter hHere hFits hChild _ ih =>
      exact .enter (hKeeps.directory _ hHere) hFits
        (hKeeps.directory _ hChild) ih
  | link hHere hFits hChild _ ih =>
      exact .link (hKeeps.directory _ hHere) hFits
        (hKeeps.link _ _ hChild) ih

------------------------------------------------------------
-- File Systems Without Links
------------------------------------------------------------

/- There is no symbolic link. -/
def NoLinks (fs : FileSystem) : Prop :=
  ∀ loc target, fs.entryAt? loc ≠ some (.link target)

theorem noLinks_bare : NoLinks bare := by
  intro loc target
  rw [entryAt?_bare]
  split <;> simp

/- Without links a way ends where its steps say. -/
theorem location_of_walk
    (hLinks : NoLinks fs)
    {links : Nat}
    {here : Location}
    {way : List Step}
    {found : Found}
    (hWalk : fs.walk true links here way = .ok found) :
    found.location = Path.arrive here way := by
  have hWalks := walks_of_walk hWalk
  clear hWalk
  induction hWalks with
  | here => rfl
  | stay _ _ ih => exact ih
  | up _ _ ih => exact ih
  | missing _ _ _ => rfl
  | enter _ _ _ _ _ ih => exact ih
  | link _ _ hChild _ _ => exact absurd hChild (hLinks _ _)

/- Without links a way to a directory ends where its steps say. -/
theorem Leads.eq_arrive
    (hLinks : NoLinks fs)
    {links : Nat}
    {here loc : Location}
    {way : List Step}
    (h : fs.Leads links here way loc) :
    loc = Path.arrive here way :=
  location_of_walk hLinks h.walk

/- Names lead to the directory below that is there. -/
theorem leads_map_enter
    {links : Nat}
    {here : Location}
    {names : List String}
    (hFits : ∀ name ∈ names, FitsName name)
    (hDirectory : fs.entryAt? (here ++ names) = some .directory) :
    fs.Leads links here (names.map .enter) (here ++ names) := by
  induction names generalizing here with
  | nil =>
      simp only [List.append_nil] at hDirectory ⊢
      exact .here hDirectory
  | cons name rest ih =>
      have hAssoc : here ++ name :: rest = here ++ [name] ++ rest := by
        simp
      rw [hAssoc] at hDirectory ⊢
      have hHere : fs.entryAt? here = some .directory := by
        apply directory_of_append (name :: rest) (by simp)
        rw [hAssoc, hDirectory]
        simp
      have hChild : fs.entryAt? (here ++ [name]) = some .directory := by
        cases rest with
        | nil => simpa using hDirectory
        | cons next others =>
            apply directory_of_append (next :: others) (by simp)
            rw [hDirectory]
            simp
      exact .enter hHere (hFits name (by simp)) hChild
        (ih (fun n hn => hFits n (by simp [hn])) hDirectory)

/- A way to a directory and then on to one in it. -/
theorem Leads.snoc
    {links : Nat}
    {here dir : Location}
    {way : List Step}
    {name : String}
    (h : fs.Leads links here way dir)
    (hFits : FitsName name)
    (hChild : fs.entryAt? (dir ++ [name]) = some .directory) :
    fs.Leads links here (way ++ [.enter name]) (dir ++ [name]) := by
  rcases h.walk_append with ⟨left, hLeft⟩
  apply leads_of_walk _ hChild
  rw [hLeft, walk_enter, if_pos h.directory, if_pos hFits, hChild]
  exact walk_nil _ _ _

/- The names on a way to a directory are not too long. -/
theorem Leads.fitsName
    {links : Nat}
    {here loc : Location}
    {way : List Step}
    (h : fs.Leads links here way loc)
    {name : String}
    (hName : .enter name ∈ way) :
    FitsName name := by
  induction h with
  | here _ => simp at hName
  | stay _ _ ih => exact ih (by simpa using hName)
  | up _ _ ih => exact ih (by simpa using hName)
  | enter _ hFits _ _ ih =>
      rcases List.mem_cons.mp hName with hEq | hRest
      · rcases Step.enter.inj hEq with rfl
        exact hFits
      · exact ih hRest
  | link _ hFits _ _ ih =>
      rcases List.mem_cons.mp hName with hEq | hRest
      · rcases Step.enter.inj hEq with rfl
        exact hFits
      · exact ih (List.mem_append_right _ hRest)

end FileSystem

end Bindery

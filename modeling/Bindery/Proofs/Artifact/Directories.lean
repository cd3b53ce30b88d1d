import Bindery.Proofs.Artifact.Outcome
import Bindery.Proofs.Files.Destination
import Mathlib.Data.List.Induction

/-
  This file says what creating the directories on the way to a
  path changes: nothing that is there, and what is new are
  directories on that way.

  Key definitions include:
    * `Grows`
    * `settle`
    * `OnWay`

  Key theorems include:
    * `createFrom_cons_final`
    * `createDirectories_grows`
    * `createDirectories_leadsTo`
    * `createDirectories_below`
    * `createDirectories_succeeds`
    * `createDirectories_grows_onWay`
-/

namespace Bindery

open FileSystem
open Bindery.Path (Step EndsIn)

------------------------------------------------------------
-- Growing by Directories
------------------------------------------------------------

/-
  Nothing changes but that there may be new directories, and
  those only at some locations.
-/
structure Grows
    (allowed : Location → Prop)
    (fs fs' : FileSystem) : Prop where
  home : fs'.home = fs.home
  kept : ∀ loc e, fs.entryAt? loc = some e → fs'.entryAt? loc = some e
  new : ∀ loc, fs.entryAt? loc = none → fs'.entryAt? loc ≠ none →
    fs'.entryAt? loc = some .directory ∧ allowed loc

namespace Grows

variable {allowed : Location → Prop} {fs fs' : FileSystem}

theorem refl (allowed : Location → Prop) (fs : FileSystem) :
    Grows allowed fs fs :=
  ⟨rfl, fun _ _ h => h, fun _ h h' => absurd h h'⟩

theorem trans
    {fs₁ fs₂ fs₃ : FileSystem}
    (h : Grows allowed fs₁ fs₂)
    (h' : Grows allowed fs₂ fs₃) :
    Grows allowed fs₁ fs₃ where
  home := h'.home.trans h.home
  kept loc e hLoc := h'.kept loc e (h.kept loc e hLoc)
  new loc hNone hSome := by
    cases hMiddle : fs₂.entryAt? loc with
    | none => exact h'.new loc hMiddle hSome
    | some e =>
        rcases h.new loc hNone (by simp [hMiddle]) with
          ⟨hDirectory, hAllowed⟩
        exact ⟨h'.kept loc _ hDirectory, hAllowed⟩

theorem mono
    {wider : Location → Prop}
    (h : Grows allowed fs fs')
    (hWider : ∀ loc, allowed loc → wider loc) :
    Grows wider fs fs' where
  home := h.home
  kept := h.kept
  new loc hNone hSome :=
    ⟨(h.new loc hNone hSome).1, hWider loc (h.new loc hNone hSome).2⟩

theorem keeps (h : Grows allowed fs fs') : Keeps fs fs' :=
  ⟨h.home, fun loc hLoc => h.kept loc _ hLoc,
    fun loc _ hLoc => h.kept loc _ hLoc⟩

/- What is no directory is what it was. -/
theorem entryAt?_eq_of_ne_directory
    (h : Grows allowed fs fs')
    {loc : Location}
    (hLoc : fs'.entryAt? loc ≠ some .directory) :
    fs'.entryAt? loc = fs.entryAt? loc := by
  cases hOld : fs.entryAt? loc with
  | some e => exact h.kept loc e hOld
  | none =>
      by_contra hSome
      exact hLoc (h.new loc hOld hSome).1

theorem entryAt?_eq_file_iff
    (h : Grows allowed fs fs')
    (loc : Location)
    (content : ByteArray) :
    fs'.entryAt? loc = some (.file content) ↔
      fs.entryAt? loc = some (.file content) := by
  constructor
  · intro hNew
    rw [← hNew, h.entryAt?_eq_of_ne_directory (by simp [hNew])]
  · exact h.kept loc _

/- A directory that is put where nothing was is all that is new. -/
theorem of_put_directory
    {dir : Location}
    {name : String}
    (hDir : fs.entryAt? dir = some .directory)
    (hNone : fs.entryAt? (dir ++ [name]) = none) :
    Grows (· = dir ++ [name]) fs
      (fs.put (dir ++ [name]) (.directory [])) := by
  have hPut := @entryAt?_put_directory fs dir name hDir
    (by simp [hNone])
  refine ⟨rfl, fun loc e hLoc => ?_, fun loc hLoc hSome => ?_⟩
  · rw [hPut, if_neg, hLoc]
    rintro rfl
    simp [hNone] at hLoc
  · rw [hPut] at hSome ⊢
    by_cases hEq : loc = dir ++ [name]
    · simp [hEq]
    · simp [hEq, hLoc] at hSome

/- A directory that is created is all that is new. -/
theorem of_makeDirectory
    {path : String}
    (h : fs.makeDirectory path = .ok fs')
    (hAllowed : ∀ dir name, fs.LiesIn path dir name →
      allowed (dir ++ [name])) :
    Grows allowed fs fs' := by
  rcases makeDirectory_eq_ok_iff.mp h with
    ⟨-, dir, name, hLies, hNone, rfl⟩
  apply (of_put_directory hLies.directory hNone).mono
  rintro loc rfl
  exact hAllowed dir name hLies

end Grows

------------------------------------------------------------
-- Creating Directories
------------------------------------------------------------

section CreateFrom

variable {fs fs' : FileSystem} {path : String} {above : List String}

/- Accept that a directory cannot be created if there is one. -/
def settle
    (path : String)
    (cause : FileError)
    (fs : FileSystem) : EStateM.Result WriteError FileSystem Unit :=
  if fs.isDirectory path then .ok () fs
  else .error (.file cause) fs

@[simp] theorem createFrom_empty (fs : FileSystem) :
    createFrom ("" :: above) fs = .ok () fs := by
  simp [createFrom]

theorem createFrom_of_ok
    (hNe : path ≠ "")
    (h : fs.makeDirectory path = .ok fs') :
    createFrom (path :: above) fs = .ok () fs' := by
  simp [createFrom, hNe, h]

theorem createFrom_of_error
    {cause : FileError}
    (hNe : path ≠ "")
    (h : fs.makeDirectory path = .error cause)
    (hCause : cause ≠ .notFound) :
    createFrom (path :: above) fs = settle path cause fs := by
  cases cause <;> simp_all [createFrom, settle]

theorem createFrom_of_notFound_error
    {e : WriteError}
    (hNe : path ≠ "")
    (h : fs.makeDirectory path = .error .notFound)
    (hAbove : createFrom above fs = .error e fs') :
    createFrom (path :: above) fs = .error e fs' := by
  simp [createFrom, hNe, h, hAbove]

theorem createFrom_of_notFound_ok
    {middle : FileSystem}
    (hNe : path ≠ "")
    (h : fs.makeDirectory path = .error .notFound)
    (hAbove : createFrom above fs = .ok () middle) :
    createFrom (path :: above) fs =
      match middle.makeDirectory path with
      | .ok fs' => .ok () fs'
      | .error cause => settle path cause middle := by
  simp only [createFrom, h, hAbove]
  rw [if_neg (by simpa using hNe)]
  cases middle.makeDirectory path <;> rfl

theorem settle_eq_ok
    {cause : FileError}
    (h : settle path cause fs = .ok () fs') :
    fs.isDirectory path = true ∧ fs' = fs := by
  unfold settle at h
  split at h
  · rename_i hDirectory
    exact ⟨hDirectory, by simpa using h.symm⟩
  · simp at h

/-
  The end of creating directories is reached from the end of
  creating those above by creating at most one more.
-/
theorem createFrom_cons_final
    (path : String)
    (above : List String)
    (fs : FileSystem) :
    Writing.final (createFrom (path :: above)) fs = fs ∨
      fs.makeDirectory path =
        .ok (Writing.final (createFrom (path :: above)) fs) ∨
      fs.makeDirectory path = .error .notFound ∧
        (Writing.final (createFrom (path :: above)) fs =
            Writing.final (createFrom above) fs ∨
          (Writing.final (createFrom above) fs).makeDirectory path =
            .ok (Writing.final (createFrom (path :: above)) fs)) := by
  by_cases hNe : path = ""
  · subst hNe
    exact Or.inl (Writing.final_of_ok (createFrom_empty fs))
  have hSettle : ∀ cause middle,
      createFrom (path :: above) fs = settle path cause middle →
      Writing.final (createFrom (path :: above)) fs = middle := by
    intro cause middle h
    unfold settle at h
    split at h
    · exact Writing.final_of_ok h
    · exact Writing.final_of_error h
  cases hMake : fs.makeDirectory path with
  | ok fs' =>
      right; left
      rw [Writing.final_of_ok (createFrom_of_ok hNe hMake)]
  | error cause =>
      by_cases hCause : cause = .notFound
      · subst hCause
        right; right
        refine ⟨rfl, ?_⟩
        cases hAbove : createFrom above fs with
        | error e middle =>
            left
            rw [Writing.final_of_error hAbove]
            exact Writing.final_of_error
              (createFrom_of_notFound_error hNe hMake hAbove)
        | ok u middle =>
            rw [Writing.final_of_ok hAbove]
            have hCons := createFrom_of_notFound_ok hNe hMake hAbove
            cases hAgain : middle.makeDirectory path with
            | ok fs' =>
                rw [hAgain] at hCons
                right
                rw [Writing.final_of_ok hCons]
            | error cause =>
                rw [hAgain] at hCons
                exact Or.inl (hSettle cause middle hCons)
      · left
        exact hSettle cause fs (createFrom_of_error hNe hMake hCause)

end CreateFrom

theorem FileSystem.LiesIn.mem_names
    {fs : FileSystem}
    {path : String}
    {dir : Location}
    {name : String}
    (h : fs.LiesIn path dir name) :
    name ∈ Path.names path := by
  rcases h.way with ⟨init, hSteps, -⟩
  simp [Path.names_of_steps hSteps]

/- One directory more is one that its path leads to. -/
theorem createFrom_cons_grows
    {allowed : Location → Prop}
    {path : String}
    {above : List String}
    {fs : FileSystem}
    (hAbove : Grows allowed fs (Writing.final (createFrom above) fs))
    (hAllowed : ∀ fs', Grows allowed fs fs' →
      ∀ dir name, fs'.LiesIn path dir name → allowed (dir ++ [name])) :
    Grows allowed fs
      (Writing.final (createFrom (path :: above)) fs) := by
  have hMake : ∀ {before after : FileSystem},
      Grows allowed fs before →
      before.makeDirectory path = .ok after →
      Grows allowed fs after :=
    fun hBefore hMake => hBefore.trans
      (Grows.of_makeDirectory hMake (hAllowed _ hBefore))
  rcases createFrom_cons_final path above fs with
    hSame | hOk | ⟨-, hSame | hOk⟩
  · rw [hSame]
    exact Grows.refl _ _
  · exact hMake (Grows.refl _ _) hOk
  · rw [hSame]
    exact hAbove
  · exact hMake hAbove hOk

/- Creating directories adds none but those that the paths lie at. -/
theorem createFrom_grows_of
    {allowed : Location → Prop}
    {paths : List String}
    {fs : FileSystem}
    (hAllowed : ∀ path ∈ paths, ∀ fs', Grows allowed fs fs' →
      ∀ dir name, fs'.LiesIn path dir name → allowed (dir ++ [name])) :
    Grows allowed fs (Writing.final (createFrom paths) fs) := by
  induction paths with
  | nil => exact Grows.refl _ _
  | cons path above ih =>
      exact createFrom_cons_grows
        (ih fun other hOther => hAllowed other (by simp [hOther]))
        (hAllowed path (by simp))

/- Creating a directory adds directories that its path names. -/
theorem createDirectories_grows
    (path : String)
    (fs : FileSystem) :
    Grows (EndsIn (Path.names path)) fs
      (Writing.final (createDirectories path) fs) := by
  apply createFrom_grows_of
  intro other hOther fs' _ dir name hLies
  have hMoves := (Path.moves_prefix_of_mem_ancestors hOther).2
  exact ⟨name,
    (Path.names_isPrefix_of_moves hMoves).subset hLies.mem_names,
    by simp⟩

/- Creating the parent of a path creates a path above it, if any. -/
theorem createParent_grows_of
    {path : String}
    {fs : FileSystem}
    {allowed : Location → Prop}
    (hAbove : ∀ above, Path.IsAbove above path →
      Grows allowed fs (Writing.final (createDirectories above) fs)) :
    Grows allowed fs (Writing.final (createParent path) fs) := by
  unfold createParent
  cases hParent : Path.parent? path with
  | none => exact Grows.refl _ _
  | some above => exact hAbove above (Path.isAbove_of_parent? hParent)

theorem createParent_grows
    (path : String)
    (fs : FileSystem) :
    Grows (EndsIn (Path.names path)) fs
      (Writing.final (createParent path) fs) := by
  apply createParent_grows_of
  intro above hAbove
  apply (createDirectories_grows above fs).mono
  intro loc h
  exact h.mono
    (Path.names_isPrefix_of_moves hAbove.moves_isPrefix).subset

/- A directory that has been created is there. -/
theorem leadsTo_of_makeDirectory
    {fs fs' : FileSystem}
    {path : String}
    (h : fs.makeDirectory path = .ok fs') :
    checkPath path = .ok () ∧ ∃ loc, fs'.LeadsTo path loc := by
  have hGrows : Grows (fun _ => True) fs fs' :=
    Grows.of_makeDirectory h fun _ _ _ => trivial
  rcases makeDirectory_eq_ok_iff.mp h with
    ⟨hCheck, dir, name, hLies, hNone, hPut⟩
  refine ⟨hCheck, dir ++ [name], leadsTo_iff_steps.mpr ?_⟩
  rcases (hLies.mono hGrows.keeps).way with ⟨init, hSteps, hLeads⟩
  have hChild : fs'.entryAt? (dir ++ [name]) = some .directory := by
    rw [hPut, entryAt?_put_directory hLies.directory (by simp [hNone]),
      if_pos rfl]
  rw [hSteps]
  exact hLeads.snoc hLies.fits hChild

theorem leadsTo_of_settle
    {fs fs' : FileSystem}
    {path : String}
    {cause : FileError}
    (h : settle path cause fs = .ok () fs') :
    checkPath path = .ok () ∧ ∃ loc, fs'.LeadsTo path loc := by
  rcases settle_eq_ok h with ⟨hDirectory, rfl⟩
  exact isDirectory_iff.mp hDirectory

/- After its directories have been created a path leads to one. -/
theorem createFrom_leadsTo
    {fs fs' : FileSystem}
    {path : String}
    {above : List String}
    (hNe : path ≠ "")
    (h : createFrom (path :: above) fs = .ok () fs') :
    checkPath path = .ok () ∧ ∃ loc, fs'.LeadsTo path loc := by
  cases hMake : fs.makeDirectory path with
  | ok middle =>
      rw [createFrom_of_ok hNe hMake] at h
      have hEq : middle = fs' := by simpa using h
      subst hEq
      exact leadsTo_of_makeDirectory hMake
  | error cause =>
      by_cases hCause : cause = .notFound
      · subst hCause
        cases hAbove : createFrom above fs with
        | error e middle =>
            rw [createFrom_of_notFound_error hNe hMake hAbove] at h
            simp at h
        | ok u middle =>
            rw [createFrom_of_notFound_ok hNe hMake hAbove] at h
            cases hAgain : middle.makeDirectory path with
            | ok after =>
                have hEq : after = fs' := by
                  simpa [hAgain] using h
                subst hEq
                exact leadsTo_of_makeDirectory hAgain
            | error cause =>
                rw [hAgain] at h
                exact leadsTo_of_settle h
      · rw [createFrom_of_error hNe hMake hCause] at h
        exact leadsTo_of_settle h

theorem createDirectories_leadsTo
    {fs fs' : FileSystem}
    {path : String}
    (hNe : path ≠ "")
    (h : createDirectories path fs = .ok () fs') :
    checkPath path = .ok () ∧ ∃ loc, fs'.LeadsTo path loc := by
  unfold createDirectories at h
  rw [Path.ancestors_eq] at h
  cases hParent : Path.parent? path with
  | none =>
      rw [hParent] at h
      exact createFrom_leadsTo hNe h
  | some above =>
      rw [hParent] at h
      exact createFrom_leadsTo hNe h

------------------------------------------------------------
-- Directories Below a Base
------------------------------------------------------------

theorem FileSystem.NoLinksBelow.grows
    {allowed : Location → Prop}
    {fs fs' : FileSystem}
    {loc : Location}
    (hLinks : NoLinksBelow fs loc)
    (hGrows : Grows allowed fs fs') :
    NoLinksBelow fs' loc := by
  intro below target h
  rw [hGrows.entryAt?_eq_of_ne_directory (by simp [h])] at h
  exact hLinks below target h

/- There is nothing to create for a path to a directory. -/
theorem createFrom_of_leadsTo
    {fs : FileSystem}
    {path : String}
    {loc : Location}
    (h : fs.LeadsTo path loc)
    (above : List String) :
    createFrom (path :: above) fs = .ok () fs ∨
      Writing.final (createFrom (path :: above)) fs = fs ∧
        checkPath path ≠ .ok () := by
  by_cases hNe : path = ""
  · subst hNe
    exact Or.inl (createFrom_empty fs)
  · rcases makeDirectory_of_leadsTo hNe h with ⟨cause, hMake, hCause⟩
    have hCreate : createFrom (path :: above) fs = _ :=
      createFrom_of_error hNe hMake hCause
    by_cases hCheck : checkPath path = .ok ()
    · left
      rw [hCreate, settle,
        if_pos (isDirectory_iff.mpr ⟨hCheck, loc, h⟩)]
    · right
      have hNot : fs.isDirectory path ≠ true := by
        intro hDirectory
        exact hCheck (isDirectory_iff.mp hDirectory).1
      rw [settle, if_neg hNot] at hCreate
      exact ⟨Writing.final_of_error hCreate, hCheck⟩

theorem createDirectories_eq_createFrom (path : String) :
    ∃ above, createDirectories path = createFrom (path :: above) := by
  unfold createDirectories
  rw [Path.ancestors_eq]
  cases Path.parent? path with
  | none => exact ⟨[], rfl⟩
  | some above => exact ⟨Path.ancestors above, rfl⟩

theorem createDirectories_of_leadsTo
    {fs : FileSystem}
    {path : String}
    {loc : Location}
    (h : fs.LeadsTo path loc) :
    createDirectories path fs = .ok () fs ∨
      Writing.final (createDirectories path) fs = fs ∧
        checkPath path ≠ .ok () := by
  rcases createDirectories_eq_createFrom path with ⟨above, hAbove⟩
  rw [hAbove]
  exact createFrom_of_leadsTo h above

theorem createDirectories_eq_ok_of_leadsTo
    {fs : FileSystem}
    {path : String}
    {loc : Location}
    (hCheck : checkPath path = .ok ())
    (h : fs.LeadsTo path loc) :
    createDirectories path fs = .ok () fs :=
  (createDirectories_of_leadsTo h).resolve_right
    fun hNot => hNot.2 hCheck

theorem createDirectories_final_of_leadsTo
    {fs : FileSystem}
    {path : String}
    {loc : Location}
    (h : fs.LeadsTo path loc) :
    Writing.final (createDirectories path) fs = fs := by
  rcases createDirectories_of_leadsTo h with hOk | ⟨hFinal, -⟩
  · exact Writing.final_of_ok hOk
  · exact hFinal

/-
  Creating directories below a base adds none but those on the
  way from the base.
-/
theorem createDirectories_grows_below
    {fs : FileSystem}
    {base path : String}
    {loc : Location}
    {names : List String}
    (hBase : fs.LeadsTo base loc)
    (hLinks : NoLinksBelow fs loc)
    (hBelow : Path.Below base names path)
    (hTrimmed : Path.Trimmed path) :
    Grows (· <+: loc ++ names) fs
      (Writing.final (createDirectories path) fs) := by
  induction names using List.reverseRecOn generalizing path with
  | nil =>
      rw [createDirectories_final_of_leadsTo (hBase.of_below_nil hBelow)]
      exact Grows.refl _ _
  | append_singleton init name ih =>
      rcases hBelow.exists_above with
        ⟨above, hParent, hAbove, hAboveTrimmed, -⟩
      have hGrows :
          Grows (· <+: loc ++ (init ++ [name])) fs
            (Writing.final (createDirectories above) fs) := by
        apply (ih hAbove hAboveTrimmed).mono
        intro l hl
        exact hl.trans (by simp [← List.append_assoc])
      unfold createDirectories at hGrows ⊢
      rw [Path.ancestors_eq, hParent]
      apply createFrom_cons_grows hGrows
      intro before hBefore dir other hLies
      rcases
          hLies.eq_below (hBase.mono hBefore.keeps)
            (hLinks.grows hBefore) (hBelow.entersBelow hTrimmed) with
        ⟨rfl, rfl, -⟩
      simp

/- All that is new once the last of the directories is there. -/
theorem Grows.entryAt?_eq
    {fs fs' : FileSystem}
    {last : Location}
    (h : Grows (· <+: last) fs fs')
    (hLast : fs'.entryAt? last = some .directory)
    (loc : Location) :
    fs'.entryAt? loc =
      if fs.entryAt? loc = none ∧ loc <+: last then some .directory
      else fs.entryAt? loc := by
  cases hOld : fs.entryAt? loc with
  | some e => simp [h.kept loc e hOld]
  | none =>
      by_cases hPrefix : loc <+: last
      · simp [directory_above hPrefix hLast, hPrefix]
      · have hNone : fs'.entryAt? loc = none := by
          by_contra hSome
          exact hPrefix (h.new loc hOld hSome).2
        simp [hNone, hPrefix]

/- Nothing was in the way of a directory that is there now. -/
theorem Grows.isOpen
    {fs fs' : FileSystem}
    {allowed : Location → Prop}
    {loc : Location}
    (h : Grows allowed fs fs')
    (hLoc : fs'.entryAt? loc = some .directory) :
    fs.IsOpen loc := by
  intro above hAbove
  cases hOld : fs.entryAt? above with
  | none => exact Or.inl rfl
  | some e =>
      right
      rw [← h.kept above e hOld, directory_above hAbove hLoc]

/- What is where after directories below a base were created. -/
theorem createDirectories_below
    {fs fs' : FileSystem}
    {base path : String}
    {loc : Location}
    {names : List String}
    (hBase : fs.LeadsTo base loc)
    (hLinks : NoLinksBelow fs loc)
    (hBelow : Path.Below base names path)
    (hTrimmed : Path.Trimmed path)
    (h : createDirectories path fs = .ok () fs') :
    Grows (· <+: loc ++ names) fs fs' ∧
      fs'.entryAt? (loc ++ names) = some .directory := by
  have hGrows :=
    createDirectories_grows_below hBase hLinks hBelow hTrimmed
  rw [Writing.final_of_ok h] at hGrows
  refine ⟨hGrows, ?_⟩
  by_cases hNe : path = ""
  · -- the empty path is the base itself, so nothing was created
    subst hNe
    have hNames : names = [] := by
      have hMoves := hBelow.moves
      rw [Path.moves_empty] at hMoves
      simpa using (List.append_eq_nil_iff.mp hMoves.symm).2
    subst hNames
    simpa using hGrows.keeps.directory loc hBase.directory
  · rcases createDirectories_leadsTo hNe h with ⟨-, last, hLast⟩
    rcases
        (hBase.mono hGrows.keeps).eq_below (hLinks.grows hGrows) hBelow
          hLast with
      ⟨rfl, -⟩
    exact hLast.directory

/- The directory of a path below a base is on the way to the path. -/
theorem createParent_grows_below
    {fs : FileSystem}
    {base path : String}
    {loc : Location}
    {names : List String}
    (hBase : fs.LeadsTo base loc)
    (hLinks : NoLinksBelow fs loc)
    (hBelow : Path.Below base names path) :
    Grows (· <+: loc ++ names.dropLast) fs
      (Writing.final (createParent path) fs) := by
  rcases List.eq_nil_or_concat names with
    rfl | ⟨init, name, rfl⟩
  · -- the path is the base itself, and everything above is there
    apply createParent_grows_of
    intro above hAbove
    rcases (hBase.of_below_nil hBelow).above hAbove with ⟨dir, hDir⟩
    rw [createDirectories_final_of_leadsTo hDir]
    exact Grows.refl _ _
  · rw [List.concat_eq_append] at hBelow
    rcases hBelow.exists_above with
      ⟨above, hParent, hAbove, hTrimmed, -⟩
    simp only [createParent, hParent, List.concat_eq_append,
      List.dropLast_concat]
    exact createDirectories_grows_below hBase hLinks hAbove hTrimmed

theorem createParent_below
    {fs fs' : FileSystem}
    {base path name : String}
    {loc : Location}
    {init : List String}
    (hBase : fs.LeadsTo base loc)
    (hLinks : NoLinksBelow fs loc)
    (hBelow : Path.Below base (init ++ [name]) path)
    (h : createParent path fs = .ok () fs') :
    Grows (· <+: loc ++ init) fs fs' ∧
      fs'.entryAt? (loc ++ init) = some .directory := by
  rcases hBelow.exists_above with ⟨above, hParent, hAbove, hTrimmed, -⟩
  simp only [createParent, hParent] at h
  exact createDirectories_below hBase hLinks hAbove hTrimmed h

theorem createDirectories_empty (fs : FileSystem) :
    createDirectories "" fs = .ok () fs := by
  rcases createDirectories_eq_createFrom "" with ⟨above, hAbove⟩
  rw [hAbove, createFrom_empty]

/- A directory is created under a name that is missing. -/
theorem makeDirectory_succeeds
    {fs : FileSystem}
    {path name : String}
    {dir : Location}
    (hCheck : checkPath path = .ok ())
    (hLies : fs.LiesIn path dir name)
    (hNone : fs.entryAt? (dir ++ [name]) = none) :
    ∃ fs', fs.makeDirectory path = .ok fs' ∧
      Grows (· <+: dir ++ [name]) fs fs' ∧
      fs'.entryAt? (dir ++ [name]) = some .directory := by
  refine ⟨_, makeDirectory_eq_ok_iff.mpr
    ⟨hCheck, dir, name, hLies, hNone, rfl⟩, ?_, ?_⟩
  · exact (Grows.of_put_directory hLies.directory hNone).mono
      fun _ hLoc => hLoc ▸ List.prefix_refl _
  · rw [entryAt?_put_directory hLies.directory (by simp [hNone]),
      if_pos rfl]

/-
  A directory is created once the one that it is created in is
  there or has been created first.
-/
theorem createFrom_cons_succeeds
    {fs : FileSystem}
    {base path name : String}
    {loc : Location}
    {init above : List String}
    (hBase : fs.LeadsTo base loc)
    (hEnters : Path.EntersBelow base init name path)
    (hCheck : checkPath path = .ok ())
    (hFits : ∀ n ∈ init ++ [name], FitsName n)
    (hOpen : fs.IsOpen (loc ++ init))
    (hNone : fs.entryAt? (loc ++ init ++ [name]) = none)
    (hAbove : fs.entryAt? (loc ++ init) = none →
      ∃ fs', createFrom above fs = .ok () fs' ∧
        Grows (· <+: loc ++ init) fs fs' ∧
        fs'.entryAt? (loc ++ init) = some .directory) :
    ∃ fs', createFrom (path :: above) fs = .ok () fs' ∧
      Grows (· <+: loc ++ init ++ [name]) fs fs' ∧
      fs'.entryAt? (loc ++ init ++ [name]) = some .directory := by
  have hMake : ∀ {before : FileSystem},
      Grows (· <+: loc ++ init) fs before →
      before.entryAt? (loc ++ init) = some .directory →
      ∃ after, before.makeDirectory path = .ok after ∧
        Grows (· <+: loc ++ init ++ [name]) fs after ∧
        after.entryAt? (loc ++ init ++ [name]) = some .directory := by
    intro before hGrows hDirectory
    have hLies := liesIn_of_entersBelow (hBase.mono hGrows.keeps)
      hEnters hFits hDirectory
    -- only directories on the way so far are new
    have hStill : before.entryAt? (loc ++ init ++ [name]) = none := by
      by_contra hSome
      exact not_snoc_isPrefix _ _ (hGrows.new _ hNone hSome).2
    rcases makeDirectory_succeeds hCheck hLies hStill with
      ⟨after, hMade, hMore, hNew⟩
    exact ⟨after, hMade, (hGrows.mono fun _ hLoc =>
      hLoc.trans (List.prefix_append _ _)).trans hMore, hNew⟩
  have hNe := ne_empty_of_checkPath hCheck
  rcases hOpen (loc ++ init) (List.prefix_refl _) with
    hMissing | hDirectory
  · have hNotFound := makeDirectory_missing_below hBase hEnters hCheck
      (fun n hn => hFits n (by simp [hn])) hOpen hMissing
    rcases hAbove hMissing with ⟨middle, hCreate, hGrows, hDirectory⟩
    rcases hMake hGrows hDirectory with ⟨after, hAfter, hCreated⟩
    refine ⟨after, ?_, hCreated⟩
    rw [createFrom_of_notFound_ok hNe hNotFound hCreate, hAfter]
  · rcases hMake (Grows.refl _ _) hDirectory with
      ⟨after, hAfter, hCreated⟩
    exact ⟨after, createFrom_of_ok hNe hAfter, hCreated⟩

/-
  Below the first of its names that is missing, the directories
  of a path are created one after the other, whatever links
  there are elsewhere.
-/
theorem createDirectories_missing
    {fs : FileSystem}
    {base path name : String}
    {loc : Location}
    {rest : List String}
    (hBase : fs.LeadsTo base loc)
    (hNone : fs.entryAt? (loc ++ [name]) = none)
    (hBelow : Path.Below base (name :: rest) path)
    (hTrimmed : Path.Trimmed path)
    (hCheck : checkPath path = .ok ())
    (hFits : ∀ n ∈ name :: rest, FitsName n) :
    ∃ fs', createDirectories path fs = .ok () fs' ∧
      Grows (· <+: loc ++ name :: rest) fs fs' ∧
      fs'.entryAt? (loc ++ name :: rest) = some .directory := by
  induction rest using List.reverseRecOn generalizing path with
  | nil =>
      have hEnters := @Path.Below.entersBelow base name path [] hBelow
        hTrimmed
      have hHere : fs.entryAt? (loc ++ []) = some .directory := by
        rw [List.append_nil, hBase.directory]
      have hOpen : fs.IsOpen (loc ++ []) := fun above hAbove =>
        Or.inr (directory_above hAbove hHere)
      rcases createDirectories_eq_createFrom path with ⟨above, hPath⟩
      have hCreate := @createFrom_cons_succeeds _ _ _ _ _ _ above hBase
        hEnters hCheck hFits hOpen (by rwa [List.append_nil])
        fun hNot => by simp [hBase.directory] at hNot
      rwa [List.append_nil, ← hPath] at hCreate
  | append_singleton init last ih =>
      rw [← List.cons_append] at hBelow hFits ⊢
      rcases hBelow.exists_above with
        ⟨above, hParent, hAbove, hAboveTrimmed, hStart⟩
      have hAboveNe : above ≠ "" := by
        rintro rfl
        simpa using hAbove.moves
      have hCreate := ih hAbove hAboveTrimmed
        (checkPath_of_sublist hAboveNe hStart.sublist hCheck)
        fun n hn => hFits n (List.mem_append_left _ hn)
      have hMissing :
          fs.entryAt? (loc ++ name :: init ++ [last]) = none := by
        rw [List.append_assoc, List.cons_append, List.append_cons]
        exact entryAt?_of_isPrefix_of_none (List.prefix_append _ _)
          hNone
      unfold createDirectories at hCreate ⊢
      rw [Path.ancestors_eq, hParent, ← List.append_assoc]
      exact createFrom_cons_succeeds hBase (hBelow.entersBelow hTrimmed)
        hCheck hFits (isOpen_of_none hBase.directory hNone init) hMissing
        fun _ => hCreate

/- Directories can be created where nothing stands in the way. -/
theorem createDirectories_succeeds
    {fs : FileSystem}
    {base path : String}
    {loc : Location}
    {names : List String}
    (hBase : fs.LeadsTo base loc)
    (hLinks : NoLinksBelow fs loc)
    (hBelow : Path.Below base names path)
    (hTrimmed : Path.Trimmed path)
    (hCheck : path = "" ∨ checkPath path = .ok ())
    (hFits : ∀ n ∈ names, FitsName n)
    (hOpen : fs.IsOpen (loc ++ names)) :
    ∃ fs', createDirectories path fs = .ok () fs' := by
  induction names using List.reverseRecOn generalizing path with
  | nil =>
      rcases hCheck with rfl | hCheck
      · exact ⟨fs, createDirectories_empty fs⟩
      · exact ⟨fs, createDirectories_eq_ok_of_leadsTo hCheck
          (hBase.of_below_nil hBelow)⟩
  | append_singleton init name ih =>
      have hCheck : checkPath path = .ok () := by
        rcases hCheck with rfl | hCheck
        · simpa using hBelow.moves
        · exact hCheck
      rw [← List.append_assoc] at hOpen
      have hOpenAbove := hOpen.of_isPrefix (List.prefix_append _ _)
      rcases hBelow.exists_above with
        ⟨above, hParent, hAbove, hAboveTrimmed, hStart⟩
      have hAboveCheck : above = "" ∨ checkPath above = .ok () := by
        by_cases hNe : above = ""
        · exact Or.inl hNe
        · exact Or.inr (checkPath_of_sublist hNe hStart.sublist hCheck)
      rcases hOpen (loc ++ init ++ [name]) (List.prefix_refl _) with
        hNone | hThere
      · rcases ih hAbove hAboveTrimmed hAboveCheck
            (fun n hn => hFits n (by simp [hn])) hOpenAbove with
          ⟨middle, hCreate⟩
        rcases
            createDirectories_below hBase hLinks hAbove hAboveTrimmed
              hCreate with
          ⟨hGrows, hDirectory⟩
        unfold createDirectories at hCreate ⊢
        rw [Path.ancestors_eq, hParent]
        rcases createFrom_cons_succeeds hBase
            (hBelow.entersBelow hTrimmed) hCheck hFits hOpenAbove hNone
            fun _ => ⟨middle, hCreate, hGrows, hDirectory⟩ with
          ⟨fs', hMade, -⟩
        exact ⟨fs', hMade⟩
      · rw [List.append_assoc] at hThere
        exact ⟨fs, createDirectories_eq_ok_of_leadsTo hCheck
          (hBase.below hBelow hFits hThere)⟩

/- So can the directory of a path. -/
theorem createParent_succeeds
    {fs : FileSystem}
    {base path name : String}
    {loc : Location}
    {init : List String}
    (hBase : fs.LeadsTo base loc)
    (hLinks : NoLinksBelow fs loc)
    (hBelow : Path.Below base (init ++ [name]) path)
    (hCheck : checkPath path = .ok ())
    (hFits : ∀ n ∈ init, FitsName n)
    (hOpen : fs.IsOpen (loc ++ init)) :
    ∃ fs', createParent path fs = .ok () fs' := by
  rcases hBelow.exists_above with
    ⟨above, hParent, hAbove, hTrimmed, hStart⟩
  have hAboveCheck : above = "" ∨ checkPath above = .ok () := by
    by_cases hNe : above = ""
    · exact Or.inl hNe
    · exact Or.inr (checkPath_of_sublist hNe hStart.sublist hCheck)
  simp only [createParent, hParent]
  exact createDirectories_succeeds hBase hLinks hAbove hTrimmed
    hAboveCheck hFits hOpen

------------------------------------------------------------
-- Directories Without Links
------------------------------------------------------------

theorem FileSystem.NoLinks.grows
    {allowed : Location → Prop}
    {fs fs' : FileSystem}
    (hLinks : NoLinks fs)
    (hGrows : Grows allowed fs fs') :
    NoLinks fs' := by
  intro loc target h
  rw [hGrows.entryAt?_eq_of_ne_directory (by simp [h])] at h
  exact hLinks loc target h

/- Every location on the way is from the start or has a name. -/
def OnWay
    (start : Location)
    (names : List String)
    (loc : Location) : Prop :=
  ∀ above, above <+: loc → above <+: start ∨ EndsIn names above

theorem OnWay.append
    {start loc : Location}
    {names : List String}
    (h : OnWay start names loc)
    (more : List String) :
    OnWay start (names ++ more) (loc ++ more) := by
  intro above hAbove
  rcases List.prefix_or_prefix_of_prefix hAbove
    (List.prefix_append loc more) with hShort | ⟨rest, rfl⟩
  · rcases h above hShort with hStart | hEnds
    · exact Or.inl hStart
    · exact Or.inr (hEnds.mono (List.subset_append_left _ _))
  · rw [List.prefix_append_right_inj] at hAbove
    rcases List.eq_nil_or_concat rest with rfl | ⟨init, last, rfl⟩
    · rw [List.append_nil]
      rcases h loc (List.prefix_refl _) with hStart | hEnds
      · exact Or.inl hStart
      · exact Or.inr (hEnds.mono (List.subset_append_left _ _))
    · right
      refine ⟨last, ?_, by simp⟩
      exact List.mem_append_right _ (hAbove.subset (by simp))

/- Where the first steps of a way arrive is on that way. -/
theorem onWay_arrive
    {here : Location}
    {front way : List Step}
    (hFront : front <+: way) :
    OnWay here (way.filterMap Step.name?) (Path.arrive here front) := by
  intro above hAbove
  refine (Path.prefix_arrive hAbove).imp_right fun hEnds => ?_
  exact hEnds.mono (hFront.filterMap _).subset

theorem onWay_destination
    (home : Location)
    (path : String) :
    OnWay (startOf home path) (Path.names path) (destination home path) :=
  onWay_arrive (List.prefix_refl _)

/- Without links directories are created on the way to a path. -/
theorem createDirectories_grows_onWay
    {fs : FileSystem}
    (hLinks : NoLinks fs)
    (path : String) :
    Grows (OnWay (startOf fs.home path) (Path.names path)) fs
      (Writing.final (createDirectories path) fs) := by
  apply createFrom_grows_of
  intro other hOther fs' hGrows dir name hLies above hPrefix
  rcases Path.moves_prefix_of_mem_ancestors hOther with
    ⟨hAbsolute, hMoves⟩
  rw [hLies.eq_destination (hLinks.grows hGrows), hGrows.home]
    at hPrefix
  rcases Path.prefix_arrive hPrefix with hStart | hEnds
  · exact Or.inl (by rwa [startOf_eq fs hAbsolute] at hStart)
  · exact Or.inr
      (hEnds.mono (Path.names_isPrefix_of_moves hMoves).subset)

theorem createParent_grows_onWay
    {fs : FileSystem}
    (hLinks : NoLinks fs)
    (path : String) :
    Grows (OnWay (startOf fs.home path) (Path.names path)) fs
      (Writing.final (createParent path) fs) := by
  apply createParent_grows_of
  intro above hAbove
  apply (createDirectories_grows_onWay hLinks above).mono
  intro loc h l hl
  rw [← startOf_eq fs hAbove.absolute]
  rcases h l hl with hStart | hEnds
  · exact Or.inl hStart
  · exact Or.inr (hEnds.mono
      (Path.names_isPrefix_of_moves hAbove.moves_isPrefix).subset)

/- A path that never goes up has all directories on one way. -/
theorem createDirectories_grows_forward
    {fs : FileSystem}
    {path : String}
    (hLinks : NoLinks fs)
    (hForward : Path.Forward path) :
    Grows (· <+: destination fs.home path) fs
      (Writing.final (createDirectories path) fs) := by
  apply createFrom_grows_of
  intro other hOther fs' hGrows dir name hLies
  rcases Path.moves_prefix_of_mem_ancestors hOther with
    ⟨hAbsolute, hMoves⟩
  rw [hLies.eq_destination (hLinks.grows hGrows), hGrows.home]
  exact destination_isPrefix fs hForward hAbsolute hMoves

end Bindery

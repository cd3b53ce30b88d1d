import Bindery.Artifact.Writing
import Bindery.Proofs.Files.Destination

/-
  This file says which paths pass the checks that are made
  before anything is written.

  Key definitions include:
    * `Path.StaysInside`
    * `IsFree`

  Key theorems include:
    * `checkRelative_eq_ok_iff`
    * `checkPaths_eq_ok_iff`
    * `checkDestination_eq_ok_iff`
-/

namespace Bindery

open FileSystem
open Bindery.Path (Component Step)

------------------------------------------------------------
-- Paths Inside a Directory
------------------------------------------------------------

/- A path that stays inside the directory that it is joined to. -/
structure Path.StaysInside (path : String) : Prop where
  ne_empty : path ≠ ""
  relative : isAbsolute path = false
  forward : Forward path

/- A path is refused if it starts at the root or goes up. -/
theorem mem_components_iff
    {path : String}
    {c : Component} :
    c ∈ Path.components path ↔
      c ∈ Path.lead path ∨ ∃ step ∈ Path.moves path,
        step.component = c := by
  rw [Path.components_eq, List.mem_append, List.mem_map]

theorem eq_of_mem_lead
    {path : String}
    {c : Component}
    (h : c ∈ Path.lead path) :
    c = .root ∨ c = .current := by
  unfold Path.lead at h
  split at h
  · exact Or.inl (by simpa using h)
  · split at h
    · exact Or.inr (by simpa using h)
    · simp at h

theorem root_mem_components_iff {path : String} :
    .root ∈ Path.components path ↔ Path.isAbsolute path = true := by
  rw [mem_components_iff]
  constructor
  · rintro (hLead | ⟨step, -, hStep⟩)
    · exact Path.isAbsolute_of_root_mem_lead hLead
    · cases step <;> simp [Step.component] at hStep
  · intro h
    exact Or.inl (by simp [Path.lead, h])

theorem parent_mem_components_iff {path : String} :
    .parent ∈ Path.components path ↔ ¬ Path.Forward path := by
  rw [mem_components_iff, Path.forward_iff_moves, not_not]
  constructor
  · rintro (hLead | ⟨step, hMem, hStep⟩)
    · rcases eq_of_mem_lead hLead with hRoot | hCurrent
      · cases hRoot
      · cases hCurrent
    · cases step with
      | up => exact hMem
      | stay => simp [Step.component] at hStep
      | enter name => simp [Step.component] at hStep
  · intro h
    exact Or.inr ⟨.up, h, rfl⟩

theorem checkRelative_eq_ok_iff {path : String} :
    checkRelative path = .ok () ↔ Path.StaysInside path := by
  have hAll :
      (Path.components path).all
          (fun c => c != .root && c != .parent) = true ↔
        Path.isAbsolute path = false ∧ Path.Forward path := by
    have hRoot := @root_mem_components_iff path
    have hParent := @parent_mem_components_iff path
    rw [List.all_eq_true, ← Bool.not_eq_true, ← hRoot,
      ← not_not (a := Path.Forward path), ← hParent]
    constructor
    · intro h
      exact ⟨fun hMem => by simpa using h _ hMem,
        fun hMem => by simpa using h _ hMem⟩
    · rintro ⟨hNoRoot, hNoParent⟩ c hMem
      have hNeRoot : c ≠ .root := fun h => hNoRoot (h ▸ hMem)
      have hNeParent : c ≠ .parent := fun h => hNoParent (h ▸ hMem)
      simp [hNeRoot, hNeParent]
  unfold checkRelative
  by_cases hNe : path = ""
  · rw [if_pos (by simp [hNe])]
    simp only [reduceCtorEq, false_iff]
    exact fun h => h.ne_empty hNe
  · rw [if_neg (by simpa using hNe)]
    constructor
    · intro h
      split at h
      · rename_i hOk
        rcases hAll.mp hOk with ⟨hRelative, hForward⟩
        exact ⟨hNe, hRelative, hForward⟩
      · simp at h
    · intro h
      rw [if_pos (hAll.mpr ⟨h.relative, h.forward⟩)]

/- All paths are checked, whatever their order. -/
theorem checkPaths_eq_ok_iff
    {fs : FileSystem}
    {root : String}
    {paths : List String} :
    checkPaths fs root paths = .ok () ↔
      ∀ path ∈ paths, Path.StaysInside path ∧
        checkDestination fs root path = .ok () := by
  induction paths with
  | nil => simp [checkPaths]
  | cons path rest ih =>
      rw [checkPaths, bind_eq_ok_iff]
      simp only [bind_eq_ok_iff, ih, List.forall_mem_cons]
      constructor
      · rintro ⟨⟨⟩, hRelative, ⟨⟩, hDestination, hRest⟩
        exact ⟨⟨checkRelative_eq_ok_iff.mp hRelative, hDestination⟩,
          hRest⟩
      · rintro ⟨⟨hInside, hDestination⟩, hRest⟩
        exact ⟨(), checkRelative_eq_ok_iff.mpr hInside, (),
          hDestination, hRest⟩

------------------------------------------------------------
-- Free Places
------------------------------------------------------------

/-
  A file may be put at names below a base: there are at most
  directories on the way, and none at the place itself.
-/
@[mk_iff] structure IsFree
    (fs : FileSystem)
    (base : Location)
    (names : List String) : Prop where
  above : ∀ init, init <+: names → init ≠ names →
    fs.entryAt? (base ++ init) = none ∨
      fs.entryAt? (base ++ init) = some .directory
  place : fs.entryAt? (base ++ names) ≠ some .directory

instance (fs : FileSystem) (base : Location) (names : List String) :
    Decidable (IsFree fs base names) :=
  decidable_of_iff
    ((∀ init ∈ names.inits, init ≠ names →
        fs.entryAt? (base ++ init) = none ∨
          fs.entryAt? (base ++ init) = some .directory) ∧
      fs.entryAt? (base ++ names) ≠ some .directory)
    (by simp only [isFree_iff, List.mem_inits])

section IsFree

variable {fs : FileSystem} {base : Location} {name : String}
variable {rest : List String}

/- Where nothing is, there is nothing on the way, either. -/
theorem isFree_of_none
    (hBase : fs.entryAt? base = some .directory)
    (hNone : fs.entryAt? (base ++ [name]) = none) :
    IsFree fs base (name :: rest) := by
  constructor
  · intro init hInit _
    exact isOpen_of_none hBase hNone rest _
      ((List.prefix_append_right_inj base).mpr hInit)
  · rw [List.append_cons,
      entryAt?_of_isPrefix_of_none (List.prefix_append _ _) hNone]
    simp

theorem isFree_of_absent
    (hNone : fs.entryAt? base = none)
    (names : List String) :
    IsFree fs base names := by
  have hBelow : ∀ below, fs.entryAt? (base ++ below) = none :=
    fun below =>
      entryAt?_of_isPrefix_of_none (List.prefix_append _ _) hNone
  exact ⟨fun init _ _ => Or.inl (hBelow init), by simp [hBelow names]⟩

/- Whether a place in a directory is free is seen below it. -/
theorem IsFree.of_below
    {fs' : FileSystem}
    {names : List String}
    (h : IsFree fs base names)
    (hBase : fs'.entryAt? base = some .directory)
    (hNames : names ≠ [])
    (hSame : ∀ below, below <+: names → below ≠ [] →
      fs'.entryAt? (base ++ below) = fs.entryAt? (base ++ below)) :
    IsFree fs' base names := by
  constructor
  · intro init hInit hNe
    by_cases hNil : init = []
    · exact Or.inr (by rw [hNil, List.append_nil, hBase])
    · rw [hSame init hInit hNil]
      exact h.above init hInit hNe
  · rw [hSame names (List.prefix_refl _) hNames]
    exact h.place

/- In an empty directory every place is free. -/
theorem isFree_of_vacant
    {names : List String}
    (hVacant : ∀ below, fs.entryAt? (base ++ below) =
      if below = [] then some .directory else none)
    (hNames : names ≠ []) :
    IsFree fs base names := by
  constructor
  · intro init _ _
    rw [hVacant]
    split
    · exact Or.inr rfl
    · exact Or.inl rfl
  · rw [hVacant, if_neg hNames]
    simp

/- The way to a place that is free is open. -/
theorem isFree_snoc_iff
    {init : List String}
    (hBase : fs.entryAt? base = some .directory) :
    IsFree fs base (init ++ [name]) ↔
      fs.IsOpen (base ++ init) ∧
        fs.entryAt? (base ++ init ++ [name]) ≠ some .directory := by
  rw [List.append_assoc]
  constructor
  · intro h
    refine ⟨fun above hAbove => ?_, h.place⟩
    rcases List.prefix_or_prefix_of_prefix hAbove
        (List.prefix_append base init) with
      hOver | ⟨below, rfl⟩
    · exact Or.inr (directory_above hOver hBase)
    · rw [List.prefix_append_right_inj] at hAbove
      apply h.above below (hAbove.trans (List.prefix_append _ _))
      rintro rfl
      exact not_snoc_isPrefix init name hAbove
  · rintro ⟨hOpen, hPlace⟩
    refine ⟨fun above hAbove hNe => ?_, hPlace⟩
    have hInit := (List.prefix_concat_iff.mp hAbove).resolve_left hNe
    exact hOpen _ ((List.prefix_append_right_inj base).mpr hInit)

theorem isFree_singleton_iff
    (hBase : fs.entryAt? base = some .directory) :
    IsFree fs base [name] ↔
      fs.entryAt? (base ++ [name]) ≠ some .directory := by
  have hOpen : fs.IsOpen base :=
    fun above hAbove => Or.inr (directory_above hAbove hBase)
  simpa [hOpen] using @isFree_snoc_iff fs base name [] hBase

theorem isFree_cons_iff
    (hRest : rest ≠ [])
    (hBase : fs.entryAt? base = some .directory) :
    IsFree fs base (name :: rest) ↔
      fs.entryAt? (base ++ [name]) = none ∨
        fs.entryAt? (base ++ [name]) = some .directory ∧
          IsFree fs (base ++ [name]) rest := by
  constructor
  · intro h
    rcases h.above [name] (by simp) (by simpa using hRest.symm) with
      hNone | hDirectory
    · exact Or.inl hNone
    · refine Or.inr ⟨hDirectory, fun init hInit hNe => ?_, ?_⟩
      · simpa using h.above (name :: init) (by simpa using hInit)
          (by simpa using hNe)
      · simpa using h.place
  · rintro (hNone | ⟨hDirectory, h⟩)
    · exact isFree_of_none hBase hNone
    · refine ⟨fun init hInit hNe => ?_, by simpa using h.place⟩
      cases init with
      | nil => exact Or.inr (by simpa using hBase)
      | cons first others =>
          rcases List.cons_prefix_cons.mp hInit with ⟨rfl, hOthers⟩
          simpa using h.above others hOthers (by simpa using hNe)

end IsFree

------------------------------------------------------------
-- Places Below the Output Directory
------------------------------------------------------------

/- The path of a name in a place below a base. -/
theorem Path.entersBelow_join_name
    {base place name : String}
    {names : List String}
    (hNe : place ≠ "")
    (hBelow : Path.Below base names place)
    (hName : Path.IsName name) :
    Path.EntersBelow base names name (Path.join place name) where
  absolute := (Path.isAbsolute_join hNe hName.isAbsolute).trans
    hBelow.absolute
  way := ⟨Path.steps place,
    by rw [Path.steps_join hNe hName.isAbsolute, hName], hBelow.moves⟩

section CheckBelow

variable {fs : FileSystem} {root place path : String}
variable {base : Location} {names rest : List String}

/- The check goes on from a directory, but must not end there. -/
theorem checkBelow_cons_of_isDirectory
    (c : Component)
    {components : List Component}
    (hIs : fs.isDirectory (Path.join place c.text) = true) :
    checkBelow fs path place (c :: components) = .ok () ↔
      components ≠ [] ∧
        checkBelow fs path (Path.join place c.text) components =
          .ok () := by
  simp only [checkBelow, exists?_of_isDirectory hIs, hIs]
  cases components with
  | nil => simp
  | cons next rest => simp

/- What is no directory may be replaced, but nothing lies below it. -/
theorem checkBelow_cons_of_not_isDirectory
    (c : Component)
    {components : List Component}
    (hIs : fs.isDirectory (Path.join place c.text) = false) :
    checkBelow fs path place (c :: components) = .ok () ↔
      fs.exists? (Path.join place c.text) = false ∨
        components = [] := by
  simp only [checkBelow, hIs]
  cases fs.exists? (Path.join place c.text) with
  | false => simp
  | true =>
      cases components with
      | nil => simp
      | cons next rest => simp

/-
  Going down names from a directory finds out whether the place
  at their end is free.
-/
theorem checkBelow_eq_ok_iff
    (path : String)
    (hBase : fs.LeadsTo root base)
    (hLinks : NoLinksBelow fs base)
    (hPlace : Path.Below root names place)
    (hNe : place ≠ "")
    (hHere : fs.entryAt? (base ++ names) = some .directory)
    (hNames : ∀ n ∈ rest, Path.IsName n)
    (hFits : ∀ n ∈ names ++ rest, FitsName n)
    (hCheck : ∀ init, init <+: rest → init ≠ [] →
      checkPath (init.foldl Path.join place) = .ok ())
    (hRest : rest ≠ []) :
    checkBelow fs path place (rest.map .normal) = .ok () ↔
      IsFree fs (base ++ names) rest := by
  induction rest generalizing place names with
  | nil => exact absurd rfl hRest
  | cons name others ih =>
      have hName := hNames name (by simp)
      have hEnters := Path.entersBelow_join_name hNe hPlace hName
      have hOk := hCheck [name] (by simp) (by simp)
      simp only [List.foldl_cons, List.foldl_nil] at hOk
      have hSlash := hName.endsInSlash_join hNe
      have hLies := liesIn_of_entersBelow hBase hEnters
        (fun n hn => hFits n (by
          rw [List.append_cons]
          exact List.mem_append_left _ hn)) hHere
      have hLink : ∀ target,
          fs.entryAt? (base ++ names ++ [name]) ≠
            some (.link target) := by
        intro target
        rw [List.append_assoc]
        exact hLinks _ target
      have hExists := hLies.exists?_iff hOk hSlash hLink
      have hDirectory := hLies.isDirectory_iff hOk hSlash hLink
      rw [List.map_cons]
      by_cases hIs : fs.isDirectory (Path.join place name) = true
      · have hHereNext := hDirectory.mp hIs
        rw [checkBelow_cons_of_isDirectory (.normal name) hIs]
        by_cases hOthers : others = []
        · subst hOthers
          rw [isFree_singleton_iff hHere]
          exact ⟨fun h => absurd rfl h.1, fun h => absurd hHereNext h⟩
        · have hNext := ih hEnters.below
            (Path.join_ne_empty hNe hName.isAbsolute)
            (by rw [← List.append_assoc]; exact hHereNext)
            (fun n hn => hNames n (by simp [hn]))
            (by simpa using hFits)
            (fun init hInit hInitNe => hCheck (name :: init)
              (by simpa using hInit) (by simp))
            hOthers
          rw [isFree_cons_iff hOthers hHere,
            or_iff_right (hHereNext ▸ Option.some_ne_none _),
            and_iff_right hHereNext, List.append_assoc, ← hNext,
            and_iff_right (by simpa using hOthers)]
          exact Iff.rfl
      · have hNot := mt hDirectory.mpr hIs
        rw [checkBelow_cons_of_not_isDirectory (.normal name)
          (Bool.eq_false_iff.mpr hIs)]
        by_cases hOthers : others = []
        · subst hOthers
          rw [isFree_singleton_iff hHere]
          exact iff_of_true (Or.inr rfl) hNot
        · rw [isFree_cons_iff hOthers hHere,
            or_iff_left (by simpa using hOthers),
            or_iff_left fun h => hNot h.1, ← Bool.not_eq_true]
          exact (not_congr hExists).trans not_not

end CheckBelow

------------------------------------------------------------
-- Destinations
------------------------------------------------------------

/- The components of a path inside are its names but for a dot. -/
theorem components_of_staysInside
    {path : String}
    (hInside : Path.StaysInside path) :
    Path.components path =
        (Path.names path).map Component.normal ∨
      Path.components path =
        .current :: (Path.names path).map Component.normal := by
  have hMoves :
      (Path.moves path).map Step.component =
        (Path.names path).map Component.normal := by
    rw [Path.moves_eq_map_enter hInside.forward, List.map_map]
    rfl
  rw [Path.components_eq, hMoves, Path.lead, hInside.relative]
  by_cases hDot :
      (Text.splitAt '/' path.toList).head? = some ['.']
  · exact Or.inr (by simp [hDot])
  · exact Or.inl (by simp [hDot])

/- The text of a component is a relative path of its own. -/
theorem text_of_mem_components
    {path : String}
    {c : Component}
    (hInside : Path.StaysInside path)
    (hMem : c ∈ Path.components path) :
    Path.isAbsolute c.text = false ∧ Path.steps c.text ≠ [] := by
  have hCases : c = .current ∨
      ∃ name ∈ Path.names path, Component.normal name = c := by
    rcases components_of_staysInside hInside with hAll | hAll
    · rw [hAll, List.mem_map] at hMem
      exact Or.inr hMem
    · rw [hAll, List.mem_cons, List.mem_map] at hMem
      exact hMem
  rcases hCases with rfl | ⟨name, hName, rfl⟩
  · exact ⟨rfl, by decide⟩
  · have hIsName := Path.isName_of_mem_names hName
    exact ⟨hIsName.isAbsolute, by simp [Component.text, hIsName.steps]⟩

theorem foldl_join_ne_empty
    {root : String}
    {texts : List String}
    (hRoot : root ≠ "")
    (hRelative : ∀ text ∈ texts, Path.isAbsolute text = false) :
    texts.foldl Path.join root ≠ "" := by
  induction texts generalizing root with
  | nil => exact hRoot
  | cons text rest ih =>
      exact ih (Path.join_ne_empty hRoot (hRelative text (by simp)))
        (fun other hOther => hRelative other (by simp [hOther]))

/- The places on the way to a path are not longer than its place. -/
theorem checkPath_foldl_join
    {root path : String}
    (texts : List String)
    (hRoot : root ≠ "")
    (hInside : Path.StaysInside path)
    (hCheck : checkPath (Path.join root path) = .ok ())
    (hNe : texts ≠ [])
    (hTexts : texts <+: (Path.components path).map Component.text) :
    checkPath (texts.foldl Path.join root) = .ok () := by
  have hRelative : ∀ text ∈ texts, Path.isAbsolute text = false := by
    intro text hText
    rcases List.mem_map.mp (hTexts.subset hText) with ⟨c, hMem, rfl⟩
    exact (text_of_mem_components hInside hMem).1
  rcases Path.exists_stem hRoot with ⟨stem, -, hStem⟩
  apply checkPath_of_sublist (foldl_join_ne_empty hRoot hRelative) _
    hCheck
  have hPieces :
      (texts.map String.toList).Sublist
        (Text.splitAt '/' path.toList) := by
    apply List.Sublist.trans _
      (Path.texts_sublist_pieces 0 (Text.splitAt '/' path.toList))
    have hMap := (hTexts.map String.toList).sublist
    simpa [Path.components, Path.spans_of_relative hInside.relative,
      Function.comp_def] using hMap
  have hFlat := hPieces.flatMap ('/' :: ·)
  rw [Text.flatMap_splitAt, List.flatMap_map] at hFlat
  rw [hStem path hInside.relative]
  exact (Path.foldl_join_sublist hNe hRelative hStem).trans
    (hFlat.append_left stem)

/- The components of a path without the dots for the same place. -/
def Path.plain (path : String) : List Component :=
  (components path).filter (fun c => c ≠ .current)

theorem plain_of_staysInside
    {path : String}
    (hInside : Path.StaysInside path) :
    Path.plain path = (Path.names path).map Component.normal := by
  have hKeep : ∀ names : List String,
      (names.map Component.normal).filter (fun c => c ≠ .current) =
        names.map Component.normal := by
    intro names
    rw [List.filter_eq_self]
    intro c hc
    rcases List.mem_map.mp hc with ⟨name, -, rfl⟩
    simp
  unfold Path.plain
  rcases components_of_staysInside hInside with hAll | hAll
  · rw [hAll, hKeep]
  · rw [hAll, List.filter_cons_of_neg (by simp), hKeep]

section CheckDestination

variable {fs : FileSystem} {root path : String} {base : Location}

/- Below a directory a path is refused if its place is taken. -/
theorem checkDestination_eq_ok_iff
    (hBase : fs.LeadsTo root base)
    (hLinks : NoLinksBelow fs base)
    (hRoot : root ≠ "")
    (hInside : Path.StaysInside path)
    (hFits : ∀ n ∈ Path.names path, FitsName n)
    (hCheck : checkPath (Path.join root path) = .ok ()) :
    checkDestination fs root path = .ok () ↔
      IsFree fs base (Path.names path) := by
  have hRootCheck : checkPath root = .ok () :=
    checkPath_of_sublist hRoot
      (Path.prefix_join hRoot hInside.relative).sublist hCheck
  have hIs : fs.isDirectory root = true :=
    isDirectory_iff.mpr ⟨hRootCheck, base, hBase⟩
  unfold checkDestination
  rw [if_neg (by simp [hIs])]
  have hNames : ∀ n ∈ Path.names path, Path.IsName n :=
    fun n hn => Path.isName_of_mem_names hn
  have hText : ∀ names : List String,
      (names.map Component.normal).map Component.text = names := by
    intro names
    simp [Function.comp_def, Component.text]
  rcases components_of_staysInside hInside with hAll | hAll
  · have hNe : Path.names path ≠ [] := by
      intro hNil
      have hSpans := Path.spans_ne_nil hInside.ne_empty
        hInside.relative
      rw [hNil] at hAll
      exact hSpans (by simpa [Path.components] using hAll)
    have hPlace : Path.Below root [] root := ⟨rfl, by simp⟩
    have hBelow := checkBelow_eq_ok_iff path hBase hLinks hPlace hRoot
      (by simpa using hBase.directory) hNames (by simpa using hFits)
      (fun init hInit hInitNe => checkPath_foldl_join _ hRoot hInside
        hCheck hInitNe (by rwa [hAll, hText]))
      hNe
    rw [hAll]
    simpa using hBelow
  · -- a leading dot makes the check look at the root itself first
    have hPlace : Path.Below root [] (Path.join root ".") :=
      @Path.below_join root "." hRoot rfl (by decide)
    have hLeads := hBase.of_below_nil hPlace
    have hPlaceCheck : checkPath (Path.join root ".") = .ok () :=
      checkPath_foldl_join ["."] hRoot hInside hCheck
        (by simp) (by simp [hAll, Component.text])
    have hPlaceIs : fs.isDirectory (Path.join root ".") = true :=
      isDirectory_iff.mpr ⟨hPlaceCheck, base, hLeads⟩
    rw [hAll, checkBelow_cons_of_isDirectory .current hPlaceIs]
    by_cases hNil : Path.names path = []
    · have hNot : ¬ IsFree fs base [] := by
        intro h
        exact h.place (by simpa using hBase.directory)
      simp [hNil, hNot]
    · have hBelow := checkBelow_eq_ok_iff path hBase hLinks
        hPlace (Path.join_ne_empty hRoot rfl)
        (by simpa using hBase.directory) hNames (by simpa using hFits)
        (fun init hInit hInitNe => checkPath_foldl_join
          ("." :: init) hRoot hInside hCheck (by simp)
          (by simpa [hAll, Component.text, Function.comp_def]
            using hInit))
        hNil
      simpa [hNil, Component.text] using hBelow

/- Without the output directory there is nothing below it. -/
theorem checkDestination_of_not_leadsTo
    (hNot : ∀ loc, ¬ fs.LeadsTo root loc)
    (hRoot : root ≠ "")
    (hInside : Path.StaysInside path) :
    checkDestination fs root path = .ok () ↔
      fs.exists? root = false := by
  have hIs : fs.isDirectory root = false := by
    by_contra h
    rcases isDirectory_iff.mp (by simpa using h) with ⟨-, loc, hLeads⟩
    exact hNot loc hLeads
  unfold checkDestination
  by_cases hExists : fs.exists? root = true
  · simp [hExists, hIs]
  · rw [if_neg (by simp [hExists])]
    simp only [hExists, iff_true]
    cases hAll : Path.components path with
    | nil => rfl
    | cons c rest =>
        rcases
            text_of_mem_components (c := c) hInside (by simp [hAll]) with
          ⟨hRelative, hSteps⟩
        have hGone : fs.exists? (Path.join root c.text) ≠ true := by
          intro h
          rcases exists?_iff.mp h with ⟨loc, hResolve, -⟩
          rcases resolve_eq_ok_iff.mp hResolve with ⟨-, hWalk⟩
          rw [fullSteps, Path.steps_join hRoot hRelative,
            List.append_assoc] at hWalk
          rcases
              exists_leads_of_walk_append (by simp [hSteps]) hWalk with
            ⟨dir, hLeads⟩
          rw [startOf_eq fs (Path.isAbsolute_join hRoot hRelative)]
            at hLeads
          exact hNot dir (leadsTo_iff_steps.mpr hLeads)
        simp [checkBelow, hGone]

/- Paths below it only have to stay inside then. -/
theorem checkPaths_of_not_leadsTo
    {paths : List String}
    (hNot : ∀ loc, ¬ fs.LeadsTo root loc)
    (hRoot : root ≠ "")
    (hExists : fs.exists? root = false) :
    checkPaths fs root paths = .ok () ↔
      ∀ path ∈ paths, Path.StaysInside path := by
  rw [checkPaths_eq_ok_iff]
  refine forall₂_congr fun path _ => and_iff_left_of_imp ?_
  exact fun hInside =>
    (checkDestination_of_not_leadsTo hNot hRoot hInside).mpr hExists

end CheckDestination

end Bindery

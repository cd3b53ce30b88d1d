import Bindery.Files.Node
import Bindery.Files.Path
import Bindery.Proofs.Text.Separated
import Mathlib.Data.List.Flatten
import Mathlib.Tactic.ByContra

/-
  This file relates the texts of paths to the steps of the ways
  that they describe: joining puts one way after another, and a
  path that never goes up enters one name after another.

  Key definitions include:
    * `Path.moves`
    * `Path.Forward`
    * `Path.arrive`
    * `Path.IsName`

  Key theorems include:
    * `Path.steps_join`
    * `Path.names_join`
    * `Path.moves_eq_map_enter`
    * `Path.prefix_arrive`
-/

namespace Bindery.Path

------------------------------------------------------------
-- Steps and Moves
------------------------------------------------------------

/- The steps of a way that lead somewhere else. -/
def moving (way : List Step) : List Step :=
  way.filter (fun step => step ≠ .stay)

/- The steps of a path that lead somewhere else. -/
def moves (path : String) : List Step :=
  moving (steps path)

@[simp] theorem moving_nil : moving [] = [] := rfl

@[simp] theorem moving_append (first second : List Step) :
    moving (first ++ second) = moving first ++ moving second := by
  simp [moving]

@[simp] theorem moving_cons_stay (way : List Step) :
    moving (.stay :: way) = moving way := by
  simp [moving]

@[simp] theorem moving_cons_up (way : List Step) :
    moving (.up :: way) = .up :: moving way := by
  simp [moving]

@[simp] theorem moving_cons_enter
    (name : String)
    (way : List Step) :
    moving (.enter name :: way) = .enter name :: moving way := by
  simp [moving]

@[simp] theorem moving_moving (way : List Step) :
    moving (moving way) = moving way := by
  simp [moving]

@[simp] theorem moving_steps (path : String) :
    moving (steps path) = moves path := rfl

@[simp] theorem moving_moves (path : String) :
    moving (moves path) = moves path :=
  moving_moving (steps path)

theorem moves_of_steps
    {path : String}
    {way : List Step}
    (h : steps path = way) :
    moves path = moving way := by
  rw [moves, h]

/- The first move of a way comes after steps that stay. -/
theorem exists_of_moving_eq_cons
    {way rest : List Step}
    {step : Step}
    (h : moving way = step :: rest) :
    ∃ stays others, way = stays ++ step :: others ∧
      moving stays = [] ∧ moving others = rest := by
  induction way with
  | nil => simp at h
  | cons first others ih =>
      cases first with
      | stay =>
          rcases ih (by simpa using h) with
            ⟨stays, tail, hOthers, hStays, hTail⟩
          exact ⟨.stay :: stays, tail, by simp [hOthers],
            by simp [hStays], hTail⟩
      | up =>
          rcases List.cons.inj (moving_cons_up others ▸ h) with
            ⟨rfl, hRest⟩
          exact ⟨[], others, rfl, rfl, hRest⟩
      | enter name =>
          rcases List.cons.inj (moving_cons_enter name others ▸ h) with
            ⟨rfl, hRest⟩
          exact ⟨[], others, rfl, rfl, hRest⟩

@[simp] theorem steps_empty : steps "" = [] := by
  simp [steps, Text.splitAt, stepOf]

@[simp] theorem moves_empty : moves "" = [] := by
  simp [moves]

theorem toList_ne_nil {path : String} (h : path ≠ "") :
    path.toList ≠ [] := by
  simpa using h

------------------------------------------------------------
-- Joining
------------------------------------------------------------

theorem isAbsolute_eq_false_iff {path : String} :
    isAbsolute path = false ↔ path.toList.head? ≠ some '/' := by
  simp [isAbsolute]

theorem stepOf_eq_none_iff {piece : List Char} :
    stepOf piece = none ↔ piece = [] := by
  unfold stepOf
  split
  · simp_all
  · split
    · simp_all
    · split <;> simp_all

/- A path with a character other than a slash has a step. -/
theorem steps_ne_nil_of_mem
    {path : String}
    {c : Char}
    (hMem : c ∈ path.toList)
    (hc : c ≠ '/') :
    steps path ≠ [] := by
  rcases Text.exists_mem_splitAt hMem hc with ⟨piece, hPiece, hIn⟩
  cases hStep : stepOf piece with
  | none =>
      rw [stepOf_eq_none_iff] at hStep
      simp [hStep] at hIn
  | some step =>
      exact List.ne_nil_of_mem
        (List.mem_filterMap.mpr ⟨piece, hPiece, hStep⟩)

/- A relative path that is not empty has a step. -/
theorem steps_ne_nil
    {path : String}
    (hNe : path ≠ "")
    (hRelative : isAbsolute path = false) :
    steps path ≠ [] := by
  have hList := toList_ne_nil hNe
  rw [isAbsolute_eq_false_iff] at hRelative
  cases hText : path.toList with
  | nil => exact absurd hText hList
  | cons c rest =>
      exact steps_ne_nil_of_mem (c := c) (by simp [hText])
        (by simpa [hText] using hRelative)

/- A path that does not end in a slash has a step. -/
theorem steps_ne_nil_of_endsInSlash
    {path : String}
    (hNe : path ≠ "")
    (hSlash : endsInSlash path = false) :
    steps path ≠ [] := by
  have hList := toList_ne_nil hNe
  have hLast : path.toList.getLast? ≠ some '/' := by
    simpa [endsInSlash] using hSlash
  rw [List.getLast?_eq_some_getLast hList] at hLast
  exact steps_ne_nil_of_mem (List.getLast_mem hList)
    (by simpa using hLast)

/-
  The three forms of a joined path whose second part is
  relative: the first part is empty, ends in a slash, or needs
  one.
-/
theorem toList_join
    {base path : String}
    (hBase : base ≠ "")
    (hRelative : isAbsolute path = false) :
    (∃ front, base.toList = front ++ ['/'] ∧
      (join base path).toList = front ++ '/' :: path.toList) ∨
    (join base path).toList =
      base.toList ++ '/' :: path.toList := by
  have hEmpty : base.isEmpty = false := by simpa using hBase
  unfold join
  by_cases hLast : base.toList.getLast? = some '/'
  · rcases List.getLast?_eq_some_iff.mp hLast with ⟨front, hFront⟩
    refine Or.inl ⟨front, hFront, ?_⟩
    simp [hRelative, hEmpty, hFront]
  · refine Or.inr ?_
    simp [hRelative, hEmpty, hLast]

theorem prefix_join
    {base path : String}
    (hBase : base ≠ "")
    (hRelative : isAbsolute path = false) :
    base.toList <+: (join base path).toList := by
  rcases toList_join hBase hRelative with
    ⟨front, hFront, hJoin⟩ | hJoin
  · exact ⟨path.toList, by simp [hFront, hJoin]⟩
  · exact ⟨'/' :: path.toList, hJoin.symm⟩

/- A joined path goes the way of its first part, then the other. -/
theorem steps_join
    {base path : String}
    (hBase : base ≠ "")
    (hRelative : isAbsolute path = false) :
    steps (join base path) = steps base ++ steps path := by
  rcases toList_join hBase hRelative with
    ⟨front, hFront, hJoin⟩ | hJoin
  · have hBase :
        steps base =
          (Text.splitAt '/' front).filterMap stepOf := by
      simp [steps, hFront, Text.splitAt_append, Text.splitAt,
        stepOf]
    rw [hBase, steps, hJoin, Text.splitAt_append,
      List.filterMap_append]
    rfl
  · rw [steps, hJoin, Text.splitAt_append,
      List.filterMap_append]
    rfl

@[simp] theorem moves_join
    {base path : String}
    (hBase : base ≠ "")
    (hRelative : isAbsolute path = false) :
    moves (join base path) = moves base ++ moves path := by
  rw [moves, steps_join hBase hRelative, moving_append]
  rfl

theorem names_join
    {base path : String}
    (hBase : base ≠ "")
    (hRelative : isAbsolute path = false) :
    names (join base path) = names base ++ names path := by
  rw [names, steps_join hBase hRelative, List.filterMap_append]
  rfl

theorem isAbsolute_join
    {base path : String}
    (hBase : base ≠ "")
    (hRelative : isAbsolute path = false) :
    isAbsolute (join base path) = isAbsolute base := by
  have hList := toList_ne_nil hBase
  unfold isAbsolute
  rcases toList_join hBase hRelative with
    ⟨front, hFront, hJoin⟩ | hJoin
  · rw [hJoin, hFront]
    cases front <;> simp
  · rw [hJoin]
    cases hText : base.toList with
    | nil => exact absurd hText hList
    | cons c rest => simp

theorem join_ne_empty
    {base path : String}
    (hBase : base ≠ "")
    (hRelative : isAbsolute path = false) :
    join base path ≠ "" := by
  intro hEmpty
  have hNil : (join base path).toList = [] := by simp [hEmpty]
  rcases toList_join hBase hRelative with
    ⟨front, hFront, hJoin⟩ | hJoin
  · simp [hJoin] at hNil
  · simp [hJoin] at hNil

theorem endsInSlash_join
    {base path : String}
    (hBase : base ≠ "")
    (hPath : path ≠ "")
    (hRelative : isAbsolute path = false) :
    endsInSlash (join base path) = endsInSlash path := by
  have hList := toList_ne_nil hPath
  unfold endsInSlash
  rcases toList_join hBase hRelative with
    ⟨front, hFront, hJoin⟩ | hJoin
  · rw [hJoin]
    cases hText : path.toList with
    | nil => exact absurd hText hList
    | cons c rest => simp
  · rw [hJoin]
    cases hText : path.toList with
    | nil => exact absurd hText hList
    | cons c rest => simp

/- What stands before the slash when a path is joined to a base. -/
theorem exists_stem
    {base : String}
    (hBase : base ≠ "") :
    ∃ stem, stem <+: base.toList ∧
      ∀ path, isAbsolute path = false →
        (join base path).toList = stem ++ '/' :: path.toList := by
  have hEmpty : base.isEmpty = false := by simpa using hBase
  by_cases hLast : base.toList.getLast? = some '/'
  · rcases List.getLast?_eq_some_iff.mp hLast with ⟨front, hFront⟩
    refine ⟨front, ⟨['/'], hFront.symm⟩, fun path hRelative => ?_⟩
    unfold join
    simp [hRelative, hEmpty, hFront]
  · refine ⟨base.toList, List.prefix_refl _,
      fun path hRelative => ?_⟩
    unfold join
    simp [hRelative, hEmpty, hLast]

/- A path joined piece by piece has no more than the pieces in it. -/
theorem foldl_join_sublist
    {stem : List Char}
    {base : String}
    {texts : List String}
    (hTexts : texts ≠ [])
    (hRelative : ∀ text ∈ texts, isAbsolute text = false)
    (hStem : ∀ path, isAbsolute path = false →
      (join base path).toList = stem ++ '/' :: path.toList) :
    (texts.foldl join base).toList.Sublist
      (stem ++ texts.flatMap (fun text => '/' :: text.toList)) := by
  induction texts generalizing base stem with
  | nil => exact absurd rfl hTexts
  | cons text rest ih =>
      have hText := hStem text (hRelative text (by simp))
      by_cases hRest : rest = []
      · simp [hRest, hText]
      · have hJoin : join base text ≠ "" := by
          intro hEmpty
          simp [hEmpty] at hText
        rcases exists_stem hJoin with ⟨next, hNext, hNextStem⟩
        have hFold := ih hRest
          (fun other hOther => hRelative other (by simp [hOther]))
          hNextStem
        rw [List.foldl_cons, List.flatMap_cons, ← List.append_assoc,
          ← hText]
        exact hFold.trans (hNext.sublist.append_right _)

------------------------------------------------------------
-- Ways Without a Step Up
------------------------------------------------------------

/- A path that never goes up. -/
def Forward (path : String) : Prop :=
  .up ∉ steps path

instance (path : String) : Decidable (Forward path) :=
  inferInstanceAs (Decidable (¬ _ ∈ _))

/- Where a way arrives if every name on it is a directory. -/
def arrive : Location → List Step → Location
| here, [] => here
| here, .stay :: rest => arrive here rest
| here, .up :: rest => arrive here.dropLast rest
| here, .enter name :: rest => arrive (here ++ [name]) rest

@[simp] theorem arrive_nil (here : Location) :
    arrive here [] = here := rfl

@[simp] theorem arrive_append
    (here : Location)
    (first second : List Step) :
    arrive here (first ++ second) =
      arrive (arrive here first) second := by
  induction first generalizing here with
  | nil => rfl
  | cons step rest ih => cases step <;> simp [arrive, ih]

@[simp] theorem arrive_moving
    (here : Location)
    (way : List Step) :
    arrive here (moving way) = arrive here way := by
  induction way generalizing here with
  | nil => rfl
  | cons step rest ih => cases step <;> simp [arrive, ih]

/- A way that enters one name after another. -/
@[simp] theorem arrive_map_enter
    (here : Location)
    (names : List String) :
    arrive here (names.map .enter) = here ++ names := by
  induction names generalizing here with
  | nil => simp
  | cons name rest ih => simp [arrive, ih]

/- The last name of a location is one of some names. -/
def EndsIn (names : List String) (loc : Location) : Prop :=
  ∃ name ∈ names, loc.getLast? = some name

theorem EndsIn.mono
    {names wider : List String}
    {loc : Location}
    (h : EndsIn names loc)
    (hSubset : names ⊆ wider) :
    EndsIn wider loc := by
  rcases h with ⟨name, hName, hLast⟩
  exact ⟨name, hSubset hName, hLast⟩

/- What is on the way to an arrival was there or has been entered. -/
theorem prefix_arrive
    {loc here : Location}
    {way : List Step}
    (h : loc <+: arrive here way) :
    loc <+: here ∨ EndsIn (way.filterMap Step.name?) loc := by
  induction way generalizing here with
  | nil => exact Or.inl h
  | cons step rest ih =>
      cases step with
      | stay => simpa [List.filterMap_cons, Step.name?] using ih h
      | up =>
          rcases ih h with hHere | hEnds
          · exact Or.inl (hHere.trans (List.dropLast_prefix here))
          · exact Or.inr hEnds
      | enter name =>
          rcases ih h with hHere | hEnds
          · rcases List.prefix_concat_iff.mp hHere with rfl | hHere
            · exact Or.inr ⟨name, by simp [Step.name?], by simp⟩
            · exact Or.inl hHere
          · exact Or.inr (hEnds.mono (by simp [Step.name?]))

@[simp] theorem filterMap_name?_map_enter (names : List String) :
    (names.map Step.enter).filterMap Step.name? = names := by
  induction names with
  | nil => rfl
  | cons name rest ih => simp [Step.name?, ih]

theorem filterMap_name?_moving (way : List Step) :
    (moving way).filterMap Step.name? = way.filterMap Step.name? := by
  induction way with
  | nil => rfl
  | cons step rest ih =>
      cases step <;> simp [List.filterMap_cons, Step.name?, ih]

/- The names on a way are those that a step of it enters. -/
theorem mem_filterMap_name?_iff
    {way : List Step}
    {name : String} :
    name ∈ way.filterMap Step.name? ↔ .enter name ∈ way := by
  rw [List.mem_filterMap]
  constructor
  · rintro ⟨step, hStep, hName⟩
    cases step with
    | stay => cases hName
    | up => cases hName
    | enter other =>
        obtain rfl := Option.some.inj hName
        exact hStep
  · exact fun hStep => ⟨_, hStep, rfl⟩

/- The last name of a path is the one that it enters last. -/
theorem names_of_steps
    {path name : String}
    {way : List Step}
    (hSteps : steps path = way ++ [.enter name]) :
    names path = way.filterMap Step.name? ++ [name] := by
  rw [names, hSteps, List.filterMap_append]
  rfl

/- The moves on a way that never goes up enter its names. -/
theorem moving_eq_map_enter
    {way : List Step}
    (h : .up ∉ way) :
    moving way = (way.filterMap Step.name?).map .enter := by
  induction way with
  | nil => rfl
  | cons step rest ih =>
      have hRest : .up ∉ rest := fun hMem => h (by simp [hMem])
      cases step with
      | stay => simp [List.filterMap_cons, Step.name?, ih hRest]
      | up => simp at h
      | enter name => simp [Step.name?, ih hRest]

theorem moves_eq_map_enter
    {path : String}
    (h : Forward path) :
    moves path = (names path).map .enter :=
  moving_eq_map_enter h

theorem arrive_steps_of_forward
    {path : String}
    (h : Forward path)
    (here : Location) :
    arrive here (steps path) = here ++ names path := by
  rw [← arrive_moving, moving_eq_map_enter h, arrive_map_enter]
  rfl

theorem names_eq_filterMap_moves (path : String) :
    names path = (moves path).filterMap Step.name? :=
  (filterMap_name?_moving (steps path)).symm

theorem forward_iff_moves {path : String} :
    Forward path ↔ .up ∉ moves path := by
  simp [Forward, moves, moving]

theorem forward_join_iff
    {base path : String}
    (hBase : base ≠ "")
    (hRelative : isAbsolute path = false) :
    Forward (join base path) ↔ Forward base ∧ Forward path := by
  simp [Forward, steps_join hBase hRelative]

theorem names_isPrefix_of_moves
    {above path : String}
    (h : moves above <+: moves path) :
    names above <+: names path := by
  rw [names_eq_filterMap_moves, names_eq_filterMap_moves]
  exact h.filterMap _

theorem forward_of_moves_isPrefix
    {above path : String}
    (h : moves above <+: moves path)
    (hForward : Forward path) :
    Forward above := by
  rw [forward_iff_moves] at hForward ⊢
  exact fun hUp => hForward (h.subset hUp)

------------------------------------------------------------
-- Names
------------------------------------------------------------

/- A path that is one name, as it stands in a directory. -/
def IsName (name : String) : Prop :=
  steps name = [.enter name]

instance (name : String) : Decidable (IsName name) :=
  inferInstanceAs (Decidable (_ = _))

theorem mem_splitAt_of_enter_mem
    {path name : String}
    (h : .enter name ∈ steps path) :
    name.toList ∈ Text.splitAt '/' path.toList ∧
      stepOf name.toList = some (.enter name) := by
  rcases List.mem_filterMap.mp h with ⟨piece, hPiece, hStep⟩
  have hStepOf := hStep
  unfold stepOf at hStep
  split at hStep
  · simp at hStep
  split at hStep
  · simp at hStep
  split at hStep
  · simp at hStep
  have hName : String.ofList piece = name := by simpa using hStep
  have hList : piece = name.toList := by simp [← hName]
  rw [← hList]
  exact ⟨hPiece, hStepOf⟩

/- The names on a way are names. -/
theorem isName_of_enter_mem
    {path name : String}
    (h : .enter name ∈ steps path) :
    IsName name := by
  rcases mem_splitAt_of_enter_mem h with ⟨hPiece, hStep⟩
  have hSlash := Text.not_mem_of_mem_splitAt hPiece
  rw [IsName, steps, Text.splitAt_of_not_mem hSlash]
  simp [hStep]

theorem isName_of_mem_names
    {path name : String}
    (h : name ∈ names path) :
    IsName name :=
  isName_of_enter_mem (mem_filterMap_name?_iff.mp h)

/- A longer text without a slash is a name. -/
theorem isName_of_slash_not_mem
    {name : String}
    (hSlash : '/' ∉ name.toList)
    (hLength : 2 < name.toList.length) :
    IsName name := by
  have hNil : name.toList ≠ [] := by
    intro h
    simp [h] at hLength
  have hDot : name.toList ≠ ['.'] := by
    intro h
    simp [h] at hLength
  have hDots : name.toList ≠ ['.', '.'] := by
    intro h
    simp [h] at hLength
  rw [IsName, steps, Text.splitAt_of_not_mem hSlash,
    List.filterMap_cons, stepOf, if_neg hNil, if_neg hDot,
    if_neg hDots]
  simp

namespace IsName

variable {name : String}

theorem steps (h : IsName name) : Path.steps name = [.enter name] :=
  h

theorem slash_not_mem (h : IsName name) : '/' ∉ name.toList :=
  Text.not_mem_of_mem_splitAt
    (@mem_splitAt_of_enter_mem name name (by simp [h.steps])).1

theorem ne_empty (h : IsName name) : name ≠ "" := by
  rintro rfl
  simp [IsName] at h

theorem isAbsolute (h : IsName name) :
    Path.isAbsolute name = false := by
  rw [isAbsolute_eq_false_iff]
  intro hHead
  exact h.slash_not_mem (List.mem_of_head? hHead)

theorem toList_join
    (h : IsName name)
    {path : String}
    (hRelative : Path.isAbsolute path = false) :
    (join name path).toList = name.toList ++ '/' :: path.toList := by
  rcases Path.toList_join h.ne_empty hRelative with
    ⟨front, hFront, -⟩ | hJoin
  · exact absurd (by simp [hFront]) h.slash_not_mem
  · exact hJoin

theorem endsInSlash (h : IsName name) :
    Path.endsInSlash name = false := by
  have hLast : name.toList.getLast? ≠ some '/' := by
    intro hLast
    exact h.slash_not_mem (List.mem_of_getLast? hLast)
  simpa [Path.endsInSlash] using hLast

theorem endsInSlash_join
    {base : String}
    (h : IsName name)
    (hBase : base ≠ "") :
    Path.endsInSlash (join base name) = false :=
  (Path.endsInSlash_join hBase h.ne_empty h.isAbsolute).trans
    h.endsInSlash

theorem forward (h : IsName name) : Forward name := by
  simp [Forward, h.steps]

theorem names (h : IsName name) : Path.names name = [name] := by
  simp [Path.names, h.steps, Step.name?]

end IsName

/- Paths of different names in a directory are different. -/
theorem join_injective_of_isName
    {parent other : String}
    (hParent : parent ≠ "")
    (hName : IsName name)
    (hOther : IsName other)
    (h : join parent name = join parent other) :
    name = other := by
  have hNames := congrArg names h
  rw [names_join hParent hName.isAbsolute,
    names_join hParent hOther.isAbsolute, hName.names,
    hOther.names] at hNames
  simpa using hNames

end Bindery.Path

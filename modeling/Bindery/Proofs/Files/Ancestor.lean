import Bindery.Proofs.Files.Route

/-
  This file says what the components of a path and the paths
  above it are: the path above leaves out the last move, and
  the paths above a path that never goes up enter fewer names.

  Key definitions include:
    * `Path.IsAbove`
    * `Path.Trimmed`
    * `Path.Below`

  Key theorems include:
    * `Path.components_eq`
    * `Path.isAbove_of_parent?`
    * `Path.ancestors_eq`
    * `Path.moves_prefix_of_mem_ancestors`
    * `Path.Below.exists_above`
-/

namespace Bindery.Path

------------------------------------------------------------
-- Components
------------------------------------------------------------

/- The component that a step is. -/
def Step.component : Step → Component
| .stay => .current
| .up => .parent
| .enter name => .normal name

/- The component that a path begins with apart from its moves. -/
def lead (path : String) : List Component :=
  if isAbsolute path then [.root]
  else if (Text.splitAt '/' path.toList).head? = some ['.'] then
    [.current]
  else []

/- Whether a piece that starts at some place has a span. -/
def IsKept (start : Nat) (piece : List Char) : Prop :=
  piece ≠ [] ∧ (piece = ['.'] → start = 0)

/- A piece has a span of its own or counts as nothing. -/
theorem spansFrom_cons
    (start : Nat)
    (piece : List Char) :
    (IsKept start piece ∧ ∃ component, component ≠ .root ∧
      ∀ rest, spansFrom start (piece :: rest) =
        ⟨component, start, start + piece.length⟩ ::
          spansFrom (start + (piece.length + 1)) rest) ∨
    ∀ rest, spansFrom start (piece :: rest) =
      spansFrom (start + (piece.length + 1)) rest := by
  by_cases hNil : piece = []
  · right
    intro rest
    simp [spansFrom, hNil]
  by_cases hDot : piece = ['.']
  · by_cases hStart : start = 0
    · left
      refine ⟨⟨hNil, fun _ => hStart⟩, .current, by simp, ?_⟩
      intro rest
      simp [spansFrom, hDot, hStart]
    · right
      intro rest
      simp [spansFrom, hDot, hStart]
  by_cases hDots : piece = ['.', '.']
  · left
    refine ⟨⟨hNil, fun h => absurd h hDot⟩, .parent, by simp, ?_⟩
    intro rest
    simp [spansFrom, hDots, Nat.add_assoc]
  · left
    refine ⟨⟨hNil, fun h => absurd h hDot⟩,
      .normal (String.ofList piece), by simp, ?_⟩
    intro rest
    simp [spansFrom, hNil, hDot, hDots, Nat.add_assoc]

/- After the start of a path its components are its moves. -/
theorem components_spansFrom
    {start : Nat}
    (hStart : start ≠ 0)
    (pieces : List (List Char)) :
    (spansFrom start pieces).map Span.component =
      (moving (pieces.filterMap stepOf)).map Step.component := by
  induction pieces generalizing start with
  | nil => rfl
  | cons piece rest ih =>
      have hRest := ih (show start + piece.length + 1 ≠ 0 by omega)
      by_cases hNil : piece = []
      · subst hNil
        simpa [spansFrom, stepOf] using hRest
      by_cases hDot : piece = ['.']
      · subst hDot
        simpa [spansFrom, stepOf, hStart] using hRest
      by_cases hDots : piece = ['.', '.']
      · subst hDots
        simpa [spansFrom, stepOf, Step.component] using hRest
      · simpa [spansFrom, stepOf, hNil, hDot, hDots, Step.component]
          using hRest

/- The components of a path are its lead and its moves. -/
theorem components_eq (path : String) :
    components path =
      lead path ++ (moves path).map Step.component := by
  unfold components spans lead moves steps
  by_cases hAbsolute : isAbsolute path
  · have hHead : path.toList.head? = some '/' := by
      simpa [isAbsolute] using hAbsolute
    rcases List.head?_eq_some_iff.mp hHead with ⟨rest, hText⟩
    have hPieces :=
      components_spansFrom (show 1 ≠ 0 by omega)
        (Text.splitAt '/' rest)
    simpa [hAbsolute, hText, Text.splitAt, spansFrom, stepOf]
      using hPieces
  · cases hPieces : Text.splitAt '/' path.toList with
    | nil => exact absurd hPieces (Text.splitAt_ne_nil _ _)
    | cons piece rest =>
        have hRest :=
          components_spansFrom (show piece.length + 1 ≠ 0 by omega)
            rest
        by_cases hNil : piece = []
        · subst hNil
          simpa [hAbsolute, spansFrom, stepOf] using hRest
        by_cases hDot : piece = ['.']
        · subst hDot
          simpa [hAbsolute, spansFrom, stepOf, Step.component]
            using hRest
        by_cases hDots : piece = ['.', '.']
        · subst hDots
          simpa [hAbsolute, spansFrom, stepOf, Step.component]
            using hRest
        · simpa [hAbsolute, spansFrom, stepOf, hNil, hDot, hDots,
            Step.component] using hRest

/- The components of a path are some of its pieces. -/
theorem texts_sublist_pieces
    (start : Nat)
    (pieces : List (List Char)) :
    ((spansFrom start pieces).map
      (fun span => span.component.text.toList)).Sublist pieces := by
  induction pieces generalizing start with
  | nil => simp [spansFrom]
  | cons piece rest ih =>
      have hRest := ih (start + piece.length + 1)
      by_cases hNil : piece = []
      · simpa [spansFrom, hNil] using hRest.cons piece
      by_cases hDot : piece = ['.']
      · by_cases hStart : start = 0
        · subst hDot
          simpa [spansFrom, hStart, Component.text] using hRest
        · simpa [spansFrom, hDot, hStart] using hRest.cons piece
      by_cases hDots : piece = ['.', '.']
      · subst hDots
        simpa [spansFrom, Component.text] using hRest
      · simpa [spansFrom, hNil, hDot, hDots, Component.text]
          using hRest

/- Where a span of a text lies among its pieces. -/
theorem exists_piece_of_spansFrom
    {start : Nat}
    {pieces : List (List Char)}
    {before after : List Span}
    {span : Span}
    (h : spansFrom start pieces = before ++ span :: after) :
    ∃ front piece back,
      pieces = front ++ piece :: back ∧
      spansFrom start (front ++ [piece]) = before ++ [span] ∧
      span.stop + 1 = start + Text.width (front ++ [piece]) ∧
      spansFrom (start + Text.width (front ++ [piece])) back =
        after ∧
      IsKept (start + Text.width front) piece := by
  induction pieces generalizing start before with
  | nil => simp [spansFrom] at h
  | cons first rest ih =>
      rcases spansFrom_cons start first with
        ⟨hKept, component, -, hCons⟩ | hCons
      · rw [hCons] at h
        cases before with
        | nil =>
            rcases List.cons.inj h with ⟨hSpan, hAfter⟩
            refine ⟨[], first, rest, rfl, ?_, ?_, ?_, ?_⟩
            · simp [hCons, hSpan, spansFrom]
            · simp [← hSpan, Nat.add_assoc]
            · simpa using hAfter
            · simpa using hKept
        | cons earlier before =>
            rcases List.cons.inj h with ⟨hSpan, hAfter⟩
            rcases ih hAfter with
              ⟨front, piece, back, hPieces, hSpans, hStop, hBack,
                hPiece⟩
            refine ⟨first :: front, piece, back, ?_, ?_, ?_, ?_, ?_⟩
            · simp [hPieces]
            · simp [hCons, hSpans, hSpan]
            · simpa [Nat.add_assoc] using hStop
            · simpa [Nat.add_assoc] using hBack
            · simpa [Nat.add_assoc] using hPiece
      · rw [hCons] at h
        rcases ih h with
          ⟨front, piece, back, hPieces, hSpans, hStop, hBack, hPiece⟩
        refine ⟨first :: front, piece, back, ?_, ?_, ?_, ?_, ?_⟩
        · simp [hPieces]
        · simp [hCons, hSpans]
        · simpa [Nat.add_assoc] using hStop
        · simpa [Nat.add_assoc] using hBack
        · simpa [Nat.add_assoc] using hPiece

------------------------------------------------------------
-- The Path Above
------------------------------------------------------------

/- A way that ends in a stay goes nowhere. -/
def Trimmed (path : String) : Prop :=
  (steps path).getLast? = some .stay → moves path = []

/- How a path lies above another one. -/
structure IsAbove (above path : String) : Prop where
  absolute : isAbsolute above = isAbsolute path
  start : above.toList <+: path.toList
  length : (spans above).length + 1 = (spans path).length
  moves : (∃ step, moves path = moves above ++ [step]) ∨
    (above = "" ∧ moves path = [])
  trimmed : Trimmed above

theorem length_spans (path : String) :
    (spans path).length = (lead path).length + (moves path).length := by
  have h := congrArg List.length (components_eq path)
  simpa [components] using h

theorem spans_of_relative
    {path : String}
    (h : isAbsolute path = false) :
    spans path = spansFrom 0 (Text.splitAt '/' path.toList) := by
  simp [spans, h]

theorem spans_of_absolute
    {path : String}
    (h : isAbsolute path = true) :
    spans path = ⟨.root, 0, 1⟩ ::
      spansFrom 0 (Text.splitAt '/' path.toList) := by
  simp [spans, h]

/- A path with one component that is not the root lies in itself. -/
theorem isAbove_empty
    {path : String}
    (hRelative : isAbsolute path = false)
    (h : (spans path).length = 1) :
    IsAbove "" path where
  absolute := by rw [hRelative]; rfl
  start := by simp
  length := by rw [h]; rfl
  moves := by
    rw [length_spans] at h
    cases hMoves : moves path with
    | nil => exact Or.inr ⟨rfl, rfl⟩
    | cons step rest =>
        have hRest : rest = [] := by
          rw [hMoves] at h
          apply List.eq_nil_of_length_eq_zero
          simp at h
          omega
        exact Or.inl ⟨step, by simp [hRest]⟩
  trimmed := by simp [Trimmed]

/- The root lies above an absolute path with one component more. -/
theorem isAbove_root
    {path : String}
    (hAbsolute : isAbsolute path = true)
    (h : (spans path).length = 2) :
    IsAbove "/" path where
  absolute := by rw [hAbsolute]; rfl
  start := by
    have hHead : path.toList.head? = some '/' := by
      simpa [isAbsolute] using hAbsolute
    rcases List.head?_eq_some_iff.mp hHead with ⟨rest, hText⟩
    exact ⟨rest, by simp [hText]⟩
  length := by rw [h]; rfl
  moves := by
    have hLead : (lead path).length = 1 := by simp [lead, hAbsolute]
    have hLength : (moves path).length = 1 := by
      rw [length_spans] at h
      omega
    rcases List.length_eq_one_iff.mp hLength with ⟨step, hStep⟩
    have hRoot : Path.moves "/" = [] := rfl
    exact Or.inl ⟨step, by rw [hStep, hRoot]; rfl⟩
  trimmed := fun _ => rfl

theorem isAbsolute_of_isPrefix
    {above path : String}
    (hNe : above ≠ "")
    (h : above.toList <+: path.toList) :
    isAbsolute above = isAbsolute path := by
  rcases h with ⟨rest, hRest⟩
  cases hText : above.toList with
  | nil => exact absurd hText (toList_ne_nil hNe)
  | cons c others => simp [isAbsolute, ← hRest, hText]

/- A text up to the end of one of its spans has the pieces so far. -/
theorem exists_split_slice
    {path : String}
    {before after : List Span}
    {span : Span}
    (h : spansFrom 0 (Text.splitAt '/' path.toList) =
      before ++ span :: after) :
    ∃ front piece back,
      (slice path 0 span.stop).toList <+: path.toList ∧
      Text.splitAt '/' (slice path 0 span.stop).toList =
        front ++ [piece] ∧
      Text.splitAt '/' path.toList = (front ++ [piece]) ++ back ∧
      spansFrom 0 (front ++ [piece]) = before ++ [span] ∧
      spansFrom (Text.width (front ++ [piece])) back = after ∧
      IsKept (Text.width front) piece := by
  rcases exists_piece_of_spansFrom h with
    ⟨front, piece, back, hPieces, hSpans, hStop, hBack, hPiece⟩
  have hSplit :
      Text.splitAt '/' path.toList = (front ++ [piece]) ++ back := by
    simpa using hPieces
  rcases Text.exists_prefix_splitAt_eq (by simp) hSplit with
    ⟨start, hStart, hStartSplit, hLength⟩
  have hTake : path.toList.take span.stop = start := by
    rcases hStart with ⟨rest, hRest⟩
    have hStop' : span.stop = start.length := by omega
    rw [← hRest, hStop', List.take_left]
  have hText : (slice path 0 span.stop).toList = start := by
    simp [slice, hTake]
  rw [hText]
  rw [Nat.zero_add] at hBack hPiece
  exact ⟨front, piece, back, hStart, hStartSplit, hSplit, hSpans,
    hBack, hPiece⟩

/- The text up to the component before the last lies above. -/
theorem isAbove_slice
    {path : String}
    {before : List Span}
    {previous last : Span}
    (h : spansFrom 0 (Text.splitAt '/' path.toList) =
      before ++ [previous, last]) :
    IsAbove (slice path 0 previous.stop) path := by
  rcases exists_split_slice h with
    ⟨front, piece, back, hStart, hStartSplit, hSplit, hSpans, hBack,
      hKept, hDot⟩
  generalize slice path 0 previous.stop = above
    at hStart hStartSplit ⊢
  have hNe : above ≠ "" := by
    rintro rfl
    cases front with
    | nil =>
        have hPiece : [] = piece := by
          simpa [Text.splitAt] using hStartSplit
        exact hKept hPiece.symm
    | cons first rest => simp [Text.splitAt] at hStartSplit
  have hAbsolute := isAbsolute_of_isPrefix hNe hStart
  have hSteps : steps above = (front ++ [piece]).filterMap stepOf := by
    rw [steps, hStartSplit]
  have hWidth : Text.width (front ++ [piece]) ≠ 0 := by
    cases front <;> simp
  refine ⟨hAbsolute, hStart, ?_, Or.inl ?_, ?_⟩
  · by_cases hRoot : isAbsolute path
    · rw [spans_of_absolute hRoot,
        spans_of_absolute (hAbsolute.trans hRoot), hStartSplit,
        hSpans, h]
      simp
    · have hRelative : isAbsolute path = false := by simpa using hRoot
      rw [spans_of_relative hRelative,
        spans_of_relative (hAbsolute.trans hRelative),
        hStartSplit, hSpans, h]
      simp
  · have hMoves := components_spansFrom hWidth back
    rw [hBack] at hMoves
    have hOne : (moving (back.filterMap stepOf)).length = 1 := by
      simpa using (congrArg List.length hMoves).symm
    rcases List.length_eq_one_iff.mp hOne with ⟨step, hStep⟩
    refine ⟨step, ?_⟩
    simp only [Path.moves, hSteps]
    rw [steps, hSplit, List.filterMap_append, moving_append, hStep]
  · -- only a first dot is kept, and it goes nowhere
    intro hStay
    rw [hSteps, List.filterMap_append] at hStay
    have hPiece : piece = ['.'] := by
      by_cases hDots : piece = ['.', '.']
      · simp [stepOf, hDots] at hStay
      · by_contra hNot
        simp [stepOf, hKept, hNot, hDots] at hStay
    have hFront : front = [] := by
      have hZero := hDot hPiece
      cases front with
      | nil => rfl
      | cons first rest => simp at hZero
    simp [Path.moves, hSteps, hFront, hPiece, stepOf, moving]

theorem slice_root
    {path : String}
    (h : isAbsolute path = true) :
    slice path 0 1 = "/" := by
  have hHead : path.toList.head? = some '/' := by
    simpa [isAbsolute] using h
  rcases List.head?_eq_some_iff.mp hHead with ⟨rest, hText⟩
  simp [slice, hText]

/- What `parent?` answers lies above the path. -/
theorem isAbove_of_parent?
    {path above : String}
    (h : parent? path = some above) :
    IsAbove above path := by
  unfold parent? at h
  cases hSpans : (spans path).reverse with
  | nil => simp [hSpans] at h
  | cons last before =>
      have hAll : spans path = before.reverse ++ [last] := by
        simpa using congrArg List.reverse hSpans
      simp only [hSpans] at h
      split at h
      · simp at h
      rename_i hLast
      cases before with
      | nil =>
          have hEq : "" = above := by simpa using h
          subst hEq
          apply isAbove_empty
          · by_contra hAbsolute
            rw [spans_of_absolute (by simpa using hAbsolute)] at hAll
            rcases List.cons.inj hAll with ⟨hRoot, -⟩
            exact hLast (by rw [← hRoot])
          · simp [hAll]
      | cons previous before =>
          have hEq : slice path 0 previous.stop = above := by
            simpa using h
          subst hEq
          by_cases hRoot : isAbsolute path
          · rw [spans_of_absolute hRoot] at hAll
            cases hFront : before.reverse with
            | nil =>
                simp only [List.reverse_cons, hFront, List.nil_append,
                  List.cons_append, List.cons.injEq] at hAll
                rcases hAll with ⟨hPrevious, hPieces⟩
                rw [← hPrevious, slice_root hRoot]
                apply isAbove_root hRoot
                simp [spans_of_absolute hRoot, hPieces]
            | cons first front =>
                simp only [List.reverse_cons, hFront,
                  List.cons_append, List.cons.injEq] at hAll
                apply @isAbove_slice _ front _ last
                simpa using hAll.2
          · rw [spans_of_relative (by simpa using hRoot)] at hAll
            apply @isAbove_slice _ before.reverse _ last
            simpa using hAll

theorem isAbsolute_of_root_mem_lead
    {path : String}
    (h : .root ∈ lead path) :
    isAbsolute path = true := by
  unfold lead at h
  split at h
  · assumption
  · split at h <;> simp at h

/- A relative path that is not empty has a component. -/
theorem spans_ne_nil
    {path : String}
    (hNe : path ≠ "")
    (hRelative : isAbsolute path = false) :
    spans path ≠ [] := by
  have hList := toList_ne_nil hNe
  rw [spans_of_relative hRelative]
  rw [isAbsolute_eq_false_iff] at hRelative
  cases hText : path.toList with
  | nil => exact absurd hText hList
  | cons c rest =>
      have hc : c ≠ '/' := by simpa [hText] using hRelative
      cases hRest : Text.splitAt '/' rest with
      | nil => exact absurd hRest (Text.splitAt_ne_nil _ _)
      | cons part parts =>
          simp only [Text.splitAt, hc, if_false, hRest, spansFrom]
          split
          · simp_all
          · split
            · simp
            · split <;> simp

/- Only the empty path and the root have nothing above them. -/
theorem moves_of_parent?_eq_none
    {path : String}
    (h : parent? path = none) :
    moves path = [] ∧ (path = "" ∨ isAbsolute path = true) := by
  unfold parent? at h
  cases hSpans : (spans path).reverse with
  | nil =>
      have hNil : spans path = [] := by simpa using hSpans
      have hComponents :
          lead path ++ (moves path).map Step.component = [] := by
        rw [← components_eq, components, hNil]
        rfl
      rcases List.append_eq_nil_iff.mp hComponents with ⟨hLead, hMoves⟩
      have hMoves : moves path = [] := by simpa using hMoves
      refine ⟨hMoves, ?_⟩
      by_contra hNot
      rcases not_or.mp hNot with ⟨hNe, hRelative⟩
      exact spans_ne_nil hNe (by simpa using hRelative) hNil
  | cons last before =>
      simp only [hSpans] at h
      split at h
      · rename_i hLast
        have hComponents :
            lead path ++ (moves path).map Step.component =
              (before.map Span.component).reverse ++ [.root] := by
          rw [← components_eq, components,
            ← List.reverse_reverse (spans path),
            hSpans]
          simp [hLast]
        rcases List.eq_nil_or_concat (moves path) with
          hMoves | ⟨front, step, hMoves⟩
        · refine ⟨hMoves, Or.inr (isAbsolute_of_root_mem_lead ?_)⟩
          have hLead :
              lead path =
                (before.map Span.component).reverse ++ [.root] := by
            simpa [hMoves] using hComponents
          simp [hLead]
        · exfalso
          rw [hMoves, List.concat_eq_append, List.map_append,
            ← List.append_assoc] at hComponents
          have hStep := (List.append_inj' hComponents rfl).2
          cases step <;> simp [Step.component] at hStep
      · split at h <;> simp at h

/- A path and the paths above it, one by one. -/
theorem ancestors_eq (path : String) :
    ancestors path =
      match parent? path with
      | some above => path :: ancestors above
      | none => [path] := by
  unfold ancestors
  cases hParent : parent? path with
  | none => cases (spans path).length <;> simp [ancestorsFrom, hParent]
  | some above =>
      rw [← (isAbove_of_parent? hParent).length]
      simp [ancestorsFrom, hParent]

/- A path above another one leaves out moves at its end. -/
theorem IsAbove.moves_isPrefix
    {above path : String}
    (h : IsAbove above path) :
    Path.moves above <+: Path.moves path := by
  rcases h.moves with ⟨step, hMoves⟩ | ⟨rfl, hMoves⟩
  · rw [hMoves]
    exact List.prefix_append _ _
  · simp

/- What passes on from the path above a path to it holds of all. -/
theorem induction_above
    {motive : String → Prop}
    (step : ∀ path,
      (∀ above, parent? path = some above → motive above) →
        motive path)
    (path : String) : motive path := by
  generalize hLength : (spans path).length = length
  induction length generalizing path with
  | zero =>
      apply step
      intro above hAbove
      have := (isAbove_of_parent? hAbove).length
      omega
  | succ length ih =>
      apply step
      intro above hAbove
      have := (isAbove_of_parent? hAbove).length
      exact ih above (by omega)

/- The paths above a path start as it does. -/
theorem moves_prefix_of_mem_ancestors
    {path other : String}
    (h : other ∈ ancestors path) :
    isAbsolute other = isAbsolute path ∧
      moves other <+: moves path := by
  induction path using induction_above with
  | step path ih =>
      rw [ancestors_eq] at h
      cases hParent : parent? path with
      | none =>
          have hEq : other = path := by simpa [hParent] using h
          subst hEq
          exact ⟨rfl, List.prefix_refl _⟩
      | some above =>
          have hAbove := isAbove_of_parent? hParent
          rw [hParent] at h
          rcases List.mem_cons.mp h with rfl | hOther
          · exact ⟨rfl, List.prefix_refl _⟩
          · rcases ih above hParent hOther with ⟨hAbsolute, hMoves⟩
            exact ⟨hAbsolute.trans hAbove.absolute,
              hMoves.trans hAbove.moves_isPrefix⟩

------------------------------------------------------------
-- Paths Below a Base
------------------------------------------------------------

/- A path goes where its base goes and enters some names then. -/
structure Below
    (base : String)
    (names : List String)
    (path : String) : Prop where
  absolute : isAbsolute path = isAbsolute base
  moves : moves path = moves base ++ names.map .enter

/- A path enters a last name after some other names below its base. -/
structure EntersBelow
    (base : String)
    (init : List String)
    (name : String)
    (path : String) : Prop where
  absolute : isAbsolute path = isAbsolute base
  way : ∃ way, steps path = way ++ [.enter name] ∧
    moving way = Path.moves base ++ init.map .enter

theorem EntersBelow.below
    {base name path : String}
    {init : List String}
    (h : EntersBelow base init name path) :
    Below base (init ++ [name]) path where
  absolute := h.absolute
  moves := by
    rcases h.way with ⟨way, hSteps, hWay⟩
    simp [moves_of_steps hSteps, hWay]

/- What is below a path that is below a base is below the base. -/
theorem Below.trans
    {base above path : String}
    {names more : List String}
    (h : Below base names above)
    (hPath : Below above more path) :
    Below base (names ++ more) path where
  absolute := hPath.absolute.trans h.absolute
  moves := by rw [hPath.moves, h.moves, List.map_append,
    List.append_assoc]

/- Of two paths below a base one may be below the other. -/
theorem Below.of_append
    {base above path : String}
    {names more : List String}
    (h : Below base names above)
    (hPath : Below base (names ++ more) path) :
    Below above more path where
  absolute := hPath.absolute.trans h.absolute.symm
  moves := by rw [hPath.moves, h.moves, List.map_append,
    List.append_assoc]

/- The path above one that enters a name ends before that. -/
theorem Below.exists_above
    {base name path : String}
    {init : List String}
    (h : Below base (init ++ [name]) path) :
    ∃ above, parent? path = some above ∧ Below base init above ∧
      Trimmed above ∧ above.toList <+: path.toList := by
  have hMoves : Path.moves path ≠ [] := by simp [h.moves]
  cases hParent : parent? path with
  | none => exact absurd (moves_of_parent?_eq_none hParent).1 hMoves
  | some above =>
      have hAbove := isAbove_of_parent? hParent
      refine ⟨above, rfl, ⟨hAbove.absolute.trans h.absolute, ?_⟩,
        hAbove.trimmed, hAbove.start⟩
      rcases hAbove.moves with ⟨step, hStep⟩ | ⟨-, hNil⟩
      · rw [h.moves, List.map_append, ← List.append_assoc] at hStep
        exact (List.append_inj' hStep rfl).1.symm
      · exact absurd hNil hMoves

/- A trimmed path ends in the last name that it enters. -/
theorem Below.entersBelow
    {base name path : String}
    {init : List String}
    (h : Below base (init ++ [name]) path)
    (hTrimmed : Trimmed path) :
    EntersBelow base init name path where
  absolute := h.absolute
  way := by
    have hMoves : Path.moves path ≠ [] := by simp [h.moves]
    have hSteps : steps path ≠ [] := by
      intro hNil
      exact hMoves (moves_of_steps hNil)
    have hSplit :
        ∃ way step, steps path = way ++ [step] :=
      ⟨_, _, (List.dropLast_concat_getLast hSteps).symm⟩
    rcases hSplit with ⟨way, step, hWay⟩
    have hStay : step ≠ .stay := by
      rintro rfl
      exact hMoves (hTrimmed (by simp [hWay]))
    have hAll := h.moves
    rw [moves_of_steps hWay, moving_append, List.map_append,
      ← List.append_assoc] at hAll
    have hOne : moving [step] = [step] := by simp [moving, hStay]
    rw [hOne] at hAll
    rcases List.append_inj' hAll rfl with ⟨hInit, hLast⟩
    have hEq : step = .enter name := by simpa using hLast
    subst hEq
    exact ⟨way, hWay, hInit⟩

/- A relative path that never goes up, joined to a base. -/
theorem below_join
    {base path : String}
    (hBase : base ≠ "")
    (hRelative : isAbsolute path = false)
    (hForward : Forward path) :
    Below base (names path) (join base path) where
  absolute := isAbsolute_join hBase hRelative
  moves := by
    rw [moves_join hBase hRelative, moves_eq_map_enter hForward]

/- Such a path that ends in a name. -/
theorem entersBelow_join
    {base path name : String}
    {way : List Step}
    (hBase : base ≠ "")
    (hRelative : isAbsolute path = false)
    (hForward : Forward path)
    (hSteps : steps path = way ++ [.enter name]) :
    EntersBelow base (way.filterMap Step.name?) name
      (join base path) where
  absolute := isAbsolute_join hBase hRelative
  way := by
    refine ⟨steps base ++ way, ?_, ?_⟩
    · rw [steps_join hBase hRelative, hSteps, List.append_assoc]
    · have hUp : .up ∉ way := by
        intro hMem
        exact hForward (by simp [hSteps, hMem])
      rw [moving_append, moving_eq_map_enter hUp]
      rfl

end Bindery.Path

import Bindery.Proofs.Files.Route
import Mathlib.Data.List.Basic

/-
  This file is about ordinary paths: names with one slash
  between each two of them, and no dots in place of a name.
  An ordinary path can be read in one way only.

  Key definitions include:
    * `Path.IsOrdinary`
    * `Path.IsOrdinaryRoot`

  Key theorems include:
    * `Path.IsOrdinary.steps`
    * `Path.IsOrdinary.eq_of_names`
    * `Path.IsOrdinary.isName_or_append`
    * `Path.IsOrdinaryRoot.steps`
-/

namespace Bindery.Path

------------------------------------------------------------
-- Ordinary Paths
------------------------------------------------------------

/- Whether all that stands between the slashes of a path is names. -/
def IsOrdinary (path : String) : Prop :=
  ∀ piece ∈ Text.splitAt '/' path.toList,
    piece ≠ [] ∧ piece ≠ ['.'] ∧ piece ≠ ['.', '.']

instance (path : String) : Decidable (IsOrdinary path) :=
  inferInstanceAs (Decidable (∀ _ ∈ _, _))

namespace IsOrdinary

variable {path other : String}

theorem steps (h : IsOrdinary path) :
    Path.steps path =
      (Text.splitAt '/' path.toList).map
        (fun piece => .enter (String.ofList piece)) := by
  unfold Path.steps
  rw [← List.filterMap_eq_map]
  apply List.filterMap_congr
  intro piece hPiece
  rcases h piece hPiece with ⟨hEmpty, hDot, hDots⟩
  simp [stepOf, hEmpty, hDot, hDots]

theorem names (h : IsOrdinary path) :
    Path.names path =
      (Text.splitAt '/' path.toList).map String.ofList := by
  unfold Path.names
  rw [h.steps, List.filterMap_map, ← List.filterMap_eq_map]
  rfl

theorem steps_eq_map_enter (h : IsOrdinary path) :
    Path.steps path = (Path.names path).map .enter := by
  rw [h.names, h.steps, List.map_map]
  rfl

/- Ordinary paths with the same names are the same. -/
theorem eq_of_names
    (h : IsOrdinary path)
    (hOther : IsOrdinary other)
    (hNames : Path.names path = Path.names other) :
    path = other := by
  rw [h.names, hOther.names] at hNames
  have hPieces : Text.splitAt '/' path.toList =
      Text.splitAt '/' other.toList :=
    (List.map_inj_right fun _ _ => String.ofList_inj.mp).mp hNames
  have hText := Text.flatMap_splitAt '/' path.toList
  rw [hPieces, Text.flatMap_splitAt] at hText
  exact (String.toList_inj.mp (List.cons.inj hText).2).symm

theorem nil_not_mem (h : IsOrdinary path) :
    [] ∉ Text.splitAt '/' path.toList :=
  fun hMem => (h [] hMem).1 rfl

theorem ne_empty (h : IsOrdinary path) : path ≠ "" := by
  rintro rfl
  exact h.nil_not_mem (by decide)

theorem isAbsolute (h : IsOrdinary path) :
    Path.isAbsolute path = false := by
  rw [isAbsolute_eq_false_iff]
  intro hHead
  rcases List.head?_eq_some_iff.mp hHead with ⟨rest, hRest⟩
  apply h.nil_not_mem
  rw [hRest, ← List.nil_append ('/' :: rest), Text.splitAt_append]
  simp [Text.splitAt]

theorem endsInSlash (h : IsOrdinary path) :
    Path.endsInSlash path = false := by
  rw [Path.endsInSlash, decide_eq_false_iff_not]
  intro hLast
  rcases List.getLast?_eq_some_iff.mp hLast with ⟨front, hFront⟩
  apply h.nil_not_mem
  rw [hFront, Text.splitAt_append]
  simp [Text.splitAt]

theorem forward (h : IsOrdinary path) : Forward path := by
  simp [Forward, h.steps]

theorem of_isName (h : IsName path) : IsOrdinary path := by
  intro piece hPiece
  rw [Text.splitAt_of_not_mem h.slash_not_mem,
    List.mem_singleton] at hPiece
  rcases @mem_splitAt_of_enter_mem path path (by simp [h.steps]) with
    ⟨-, hStep⟩
  rw [hPiece]
  refine ⟨?_, ?_, ?_⟩ <;>
    intro hEq <;>
    simp [hEq, stepOf] at hStep

theorem join
    (h : IsOrdinary path)
    (hOther : IsOrdinary other) :
    IsOrdinary (Path.join path other) := by
  intro piece hPiece
  rcases toList_join h.ne_empty hOther.isAbsolute with
    ⟨front, hFront, -⟩ | hJoin
  · have hSlash := h.endsInSlash
    simp [Path.endsInSlash, hFront] at hSlash
  · rw [hJoin, Text.splitAt_append] at hPiece
    rcases List.mem_append.mp hPiece with hMem | hMem
    · exact h piece hMem
    · exact hOther piece hMem

theorem names_ne_nil (h : IsOrdinary path) :
    Path.names path ≠ [] := by
  rw [h.names, ne_eq, List.map_eq_nil_iff]
  exact Text.splitAt_ne_nil _ _

/- An ordinary path is a name, or a name before such a path. -/
theorem isName_or_append (h : IsOrdinary path) :
    IsName path ∨
      ∃ first rest, path = first ++ ("/" ++ rest) ∧
        IsName first ∧ IsOrdinary rest ∧
        Path.names path = first :: Path.names rest := by
  cases hPieces : Text.splitAt '/' path.toList with
  | nil => exact absurd hPieces (Text.splitAt_ne_nil _ _)
  | cons piece pieces =>
      have hFirst : IsName (String.ofList piece) := by
        apply @isName_of_mem_names path
        rw [h.names, hPieces]
        exact List.mem_cons_self
      rcases Text.eq_of_splitAt_eq_cons hPieces with
        ⟨-, hText⟩ | ⟨rest, hText, hRest⟩
      · rw [← hText, String.ofList_toList] at hFirst
        exact Or.inl hFirst
      · have hOthers : IsOrdinary (String.ofList rest) := by
          intro other hOther
          rw [String.toList_ofList, hRest] at hOther
          exact h other (hPieces ▸ List.mem_cons_of_mem _ hOther)
        refine Or.inr ⟨_, _, ?_, hFirst, hOthers, ?_⟩
        · rw [← String.toList_inj, hText]
          simp
        · rw [h.names, hOthers.names, hPieces, String.toList_ofList,
            hRest, List.map_cons]

end IsOrdinary

------------------------------------------------------------
-- Ordinary Paths, Absolute Ones Too
------------------------------------------------------------

/- Whether a path is ordinary, or a slash before such a path. -/
def IsOrdinaryRoot (root : String) : Prop :=
  ∃ path, IsOrdinary path ∧ (root = path ∨ root = "/" ++ path)

namespace IsOrdinaryRoot

variable {root : String}

theorem eq_or_eq_join (h : IsOrdinaryRoot root) :
    ∃ path, IsOrdinary path ∧
      (root = path ∨ root = join "/" path) := by
  rcases h with ⟨path, hPath, hRoot⟩
  have hLast : "/".toList.getLast? = some '/' := by decide
  refine ⟨path, hPath, ?_⟩
  simpa [join, hPath.isAbsolute, hLast] using hRoot

theorem steps (h : IsOrdinaryRoot root) :
    Path.steps root = (Path.names root).map .enter := by
  rcases h.eq_or_eq_join with ⟨path, hPath, rfl | rfl⟩
  · exact hPath.steps_eq_map_enter
  · have hSlash : Path.steps "/" = [] := by decide
    have hNames : Path.names "/" = [] := by decide
    rw [steps_join (by simp) hPath.isAbsolute,
      names_join (by simp) hPath.isAbsolute, hSlash, hNames,
      hPath.steps_eq_map_enter]
    simp

theorem forward (h : IsOrdinaryRoot root) : Forward root := by
  simp [Forward, h.steps]

theorem ne_empty (h : IsOrdinaryRoot root) : root ≠ "" := by
  rcases h.eq_or_eq_join with ⟨path, hPath, rfl | rfl⟩
  · exact hPath.ne_empty
  · exact join_ne_empty (by simp) hPath.isAbsolute

theorem endsInSlash (h : IsOrdinaryRoot root) :
    Path.endsInSlash root = false := by
  rcases h.eq_or_eq_join with ⟨path, hPath, rfl | rfl⟩
  · exact hPath.endsInSlash
  · rw [endsInSlash_join (by simp) hPath.ne_empty hPath.isAbsolute]
    exact hPath.endsInSlash

theorem names_ne_nil (h : IsOrdinaryRoot root) :
    Path.names root ≠ [] := by
  rcases h.eq_or_eq_join with ⟨path, hPath, rfl | rfl⟩
  · exact hPath.names_ne_nil
  · rw [names_join (by simp) hPath.isAbsolute]
    simp [hPath.names_ne_nil]

end IsOrdinaryRoot

end Bindery.Path

import Bindery.Proofs.Artifact.Checks
import Bindery.Target.TemplateSet
import Mathlib.Data.List.TakeWhile

/-
  This file says which part of the name of a template is left as
  the path of the file that it is rendered to: all but the last
  ending of its base name.  The path may be written to exactly
  if the name may.

  Key definitions include:
    * `Path.IsCutAt`
    * `LosesEnding`

  Key theorems include:
    * `losesEnding_dropEnding`
    * `LosesEnding.kept_eq_iff`
    * `Path.IsCutAt.staysInside_iff`
    * `artifactPath_losesEnding`
-/

namespace Bindery

------------------------------------------------------------
-- Base Names
------------------------------------------------------------

/- A path as all up to its last slash, and its base name. -/
structure Path.IsCutAt
    (path : String)
    (directory base : List Char) : Prop where
  text : path.toList = directory ++ base
  directory : directory = [] ∨ directory.getLast? = some '/'
  base : '/' ∉ base

section Cutting

variable {directory base kept : List Char}

theorem Path.exists_isCutAt (path : String) :
    ∃ directory base, Path.IsCutAt path directory base := by
  cases hCut : Text.splitLast ['/'] path.toList with
  | none =>
      exact ⟨[], path.toList, rfl, Or.inl rfl,
        Text.splitLast_singleton_eq_none_iff.mp hCut⟩
  | some pair =>
      rcases Text.splitLast_singleton_iff.mp hCut with ⟨hText, hBase⟩
      exact ⟨pair.1 ++ ['/'], pair.2, by simp [hText],
        Or.inr List.getLast?_concat, hBase⟩

/- The pieces between slashes are those before a base name, and it. -/
theorem Path.IsCutAt.exists_splitAt
    {path : String}
    (h : Path.IsCutAt path directory base) :
    ∃ front, ∀ last, '/' ∉ last →
      Text.splitAt '/' (directory ++ last) = front ++ [last] := by
  rcases h.directory with rfl | hLast
  · exact ⟨[], fun last hName => Text.splitAt_of_not_mem hName⟩
  · rcases List.getLast?_eq_some_iff.mp hLast with ⟨init, rfl⟩
    refine ⟨Text.splitAt '/' init, fun last hName => ?_⟩
    rw [List.append_assoc, List.singleton_append, Text.splitAt_append,
      Text.splitAt_of_not_mem hName]

/- What is done to a path is done to its base name. -/
theorem Path.IsCutAt.toList_artifactPath
    {template : String}
    (h : Path.IsCutAt template directory base) :
    (artifactPath template).toList = directory ++ dropEnding base := by
  rw [artifactPath, h.text]
  rcases h.directory with rfl | hLast
  · rw [List.nil_append,
      Text.splitLast_singleton_eq_none_iff.mpr h.base]
    simp
  · rcases List.getLast?_eq_some_iff.mp hLast with ⟨init, rfl⟩
    rw [List.append_assoc, List.singleton_append,
      Text.splitLast_singleton_iff.mpr ⟨rfl, h.base⟩]
    simp

end Cutting

------------------------------------------------------------
-- Endings
------------------------------------------------------------

/-
  What is kept of a base name without its last ending, and that
  ending.  Dots at the start of the name do not begin one, so if
  there is more than dots, more than dots is kept.
-/
structure LosesEnding (base kept ending : List Char) : Prop where
  text : base = kept ++ ending
  begins : ending = [] ∨ ∃ letters, ending = '.' :: letters ∧
    '.' ∉ letters ∧ '/' ∉ letters
  eq_nil_iff : ending = [] ↔ '.' ∉ base.dropWhile (· = '.')
  keeps : (∃ c ∈ base, c ≠ '.') → ∃ c ∈ kept, c ≠ '.'

section Endings

variable {base kept ending : List Char}

/- A name without the dots at its start begins with another letter. -/
theorem head_dropWhile_dots
    {c : Char}
    {rest : List Char}
    (h : base.dropWhile (· = '.') = c :: rest) :
    c ≠ '.' := by
  have hHead := List.head?_dropWhile_not (· = '.') base
  rw [h] at hHead
  simpa using hHead

/- The last dot after those at the start begins the ending. -/
theorem losesEnding_dropEnding (hBase : '/' ∉ base) :
    ∃ ending, LosesEnding base (dropEnding base) ending := by
  have hWhole := @List.takeWhile_append_dropWhile _ (· = '.') base
  cases hCut : Text.splitLast ['.'] (base.dropWhile (· = '.')) with
  | none =>
      have hKept : dropEnding base = base := by simp [dropEnding, hCut]
      have hNone := Text.splitLast_singleton_eq_none_iff.mp hCut
      refine ⟨[], ?_, Or.inl rfl, iff_of_true rfl hNone, ?_⟩
      · rw [hKept, List.append_nil]
      · rw [hKept]
        exact id
  | some pair =>
      rcases pair with ⟨before, letters⟩
      rcases Text.splitLast_singleton_iff.mp hCut with ⟨hStem, hLetters⟩
      have hKept : dropEnding base =
          base.takeWhile (· = '.') ++ before := by
        simp [dropEnding, hCut]
      have hText : base = dropEnding base ++ '.' :: letters := by
        rw [hKept, List.append_assoc, ← hStem, hWhole]
      have hSlash : '/' ∉ letters := fun hMem =>
        hBase (hText ▸ List.mem_append_right _ (List.mem_cons_of_mem _ hMem))
      refine ⟨'.' :: letters, hText,
        Or.inr ⟨letters, rfl, hLetters, hSlash⟩, ?_, fun _ => ?_⟩
      · rw [hStem]
        simp
      · cases before with
        | nil => exact absurd rfl (head_dropWhile_dots hStem)
        | cons c rest =>
            exact ⟨c, by simp [hKept], head_dropWhile_dots hStem⟩

/- Only names of something else than dots lose something. -/
theorem LosesEnding.kept_eq_iff
    {dots : List Char}
    (h : LosesEnding base kept ending)
    (hDots : ∀ c ∈ dots, c = '.') :
    kept = dots ↔ base = dots := by
  -- if one of both has dots only, the name has, and loses nothing
  have hSame : (∀ c ∈ base, c = '.') → kept = base := by
    intro hAll
    have hStem : base.dropWhile (· = '.') = [] := by
      simpa [List.dropWhile_eq_nil_iff] using hAll
    have hNil := h.eq_nil_iff.mpr (by simp [hStem])
    rw [h.text, hNil, List.append_nil]
  constructor
  · intro hKept
    rw [← hKept]
    refine (hSame fun c hc => ?_).symm
    by_contra hOther
    rcases h.keeps ⟨c, hc, hOther⟩ with ⟨d, hd, hNot⟩
    exact hNot (hDots d (hKept ▸ hd))
  · intro hBase
    rw [← hBase]
    exact hSame fun c hc => hDots c (hBase ▸ hc)

end Endings

------------------------------------------------------------
-- Checks
------------------------------------------------------------

theorem Path.forward_iff_splitAt {path : String} :
    Path.Forward path ↔
      ['.', '.'] ∉ Text.splitAt '/' path.toList := by
  have hUp : ∀ piece, Path.stepOf piece = some .up ↔
      piece = ['.', '.'] := by
    intro piece
    unfold Path.stepOf
    grind
  rw [Path.Forward, Path.steps, List.mem_filterMap]
  simp only [hUp, exists_eq_right]

/- Whether a path stays inside can be seen from its pieces. -/
theorem Path.IsCutAt.staysInside_iff
    {path : String}
    {directory base : List Char}
    {front : List (List Char)}
    (h : Path.IsCutAt path directory base)
    (hPieces : Text.splitAt '/' path.toList = front ++ [base]) :
    Path.StaysInside path ↔
      ¬(directory = [] ∧ base = []) ∧ directory.head? ≠ some '/' ∧
        ['.', '.'] ∉ front ∧ base ≠ ['.', '.'] := by
  have hEmpty : path = "" ↔ directory = [] ∧ base = [] := by
    rw [← String.toList_inj, h.text]
    simp
  have hStart : path.toList.head? = some '/' ↔
      directory.head? = some '/' := by
    have hBase : base.head? ≠ some '/' := fun hHead =>
      h.base (List.mem_of_head? hHead)
    rw [h.text]
    cases directory <;> simp [hBase]
  have hForward : Path.Forward path ↔
      ['.', '.'] ∉ front ∧ base ≠ ['.', '.'] := by
    rw [Path.forward_iff_splitAt, hPieces]
    simp [eq_comm]
  have hRelative : Path.isAbsolute path = false ↔
      directory.head? ≠ some '/' :=
    Path.isAbsolute_eq_false_iff.trans (not_congr hStart)
  rw [← hEmpty, ← hRelative, ← hForward]
  exact ⟨fun h => ⟨h.ne_empty, h.relative, h.forward⟩,
    fun h => ⟨h.1, h.2.1, h.2.2⟩⟩

/-
  The path of a template's file is the template's name up to the
  ending of its base name, with the same directories.  It has the
  same pieces but for the base name, which is empty, one dot or
  two dots only if it was; so it is accepted exactly if the name
  is.
-/
theorem artifactPath_losesEnding (template : String) :
    ∃ directory base kept ending front,
      Path.IsCutAt template directory base ∧
      Path.IsCutAt (artifactPath template) directory kept ∧
      LosesEnding base kept ending ∧
      Text.splitAt '/' template.toList = front ++ [base] ∧
      Text.splitAt '/' (artifactPath template).toList =
        front ++ [kept] ∧
      (∀ piece ∈ [[], ['.'], ['.', '.']],
        kept = piece ↔ base = piece) ∧
      (checkRelative (artifactPath template) = .ok () ↔
        checkRelative template = .ok ()) := by
  rcases Path.exists_isCutAt template with ⟨directory, base, hCut⟩
  rcases losesEnding_dropEnding hCut.base with ⟨ending, hLoses⟩
  rcases hCut.exists_splitAt with ⟨front, hFront⟩
  have hText := hCut.toList_artifactPath
  have hKept : '/' ∉ dropEnding base := fun hMem =>
    hCut.base (hLoses.text ▸ List.mem_append_left _ hMem)
  have hAfter : Path.IsCutAt (artifactPath template) directory
      (dropEnding base) := ⟨hText, hCut.directory, hKept⟩
  have hBasePieces := hFront base hCut.base
  have hKeptPieces := hFront (dropEnding base) hKept
  rw [← hCut.text] at hBasePieces
  rw [← hText] at hKeptPieces
  have hDots : ∀ piece ∈ [[], ['.'], ['.', '.']],
      dropEnding base = piece ↔ base = piece := by
    intro piece hPiece
    refine hLoses.kept_eq_iff ?_
    simp only [List.mem_cons, List.not_mem_nil, or_false] at hPiece
    rcases hPiece with rfl | rfl | rfl <;> simp
  refine ⟨directory, base, dropEnding base, ending, front, hCut, hAfter,
    hLoses, hBasePieces, hKeptPieces, hDots, ?_⟩
  rw [checkRelative_eq_ok_iff, checkRelative_eq_ok_iff,
    hCut.staysInside_iff hBasePieces, hAfter.staysInside_iff hKeptPieces,
    hDots [] (by simp), (hDots ['.', '.'] (by simp)).ne]

/- Endings after slashes, dots at the start, and dots alone. -/
example :
    ["koinos/types.hpp.j2", ".env.j2", ".gitignore", "v1.2/README",
        "a/..", "x.", "...b.c"].map artifactPath =
      ["koinos/types.hpp", ".env", ".gitignore", "v1.2/README",
        "a/..", "x", "...b"] := by
  decide +kernel

end Bindery

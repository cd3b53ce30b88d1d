import Bindery.Text.Separated
import Mathlib.Data.List.Infix

/-
  This file relates a text to the parts it is cut into: how
  the parts of two texts with a separator between them go
  together, where in the text its first parts end, and what
  stands before and after the last place of a separator.

  Key theorems include:
    * `splitAt_append`
    * `splitAt_of_not_mem`
    * `splitAt_intercalate`
    * `width_splitAt`
    * `not_mem_of_mem_splitAt`
    * `exists_prefix_splitAt_eq`
    * `splitLast_eq_none_iff`
    * `occursIn_iff_isInfix`
    * `splitLast_append`
    * `splitLast_singleton_iff`
-/

namespace Bindery.Text

------------------------------------------------------------
-- All Parts
------------------------------------------------------------

section Parts

variable {separator : Char}

theorem splitAt_ne_nil
    (separator : Char)
    (text : List Char) :
    splitAt separator text ≠ [] := by
  cases text with
  | nil => simp [splitAt]
  | cons c rest =>
      simp only [splitAt]
      split
      · simp
      · split <;> simp

/- The parts of two texts with a separator between them. -/
theorem splitAt_append
    (separator : Char)
    (first second : List Char) :
    splitAt separator (first ++ separator :: second) =
      splitAt separator first ++ splitAt separator second := by
  induction first with
  | nil => simp [splitAt]
  | cons c rest ih =>
      by_cases hc : c = separator
      · simp [splitAt, hc, ih]
      · cases hRest : splitAt separator rest with
        | nil => exact absurd hRest (splitAt_ne_nil _ _)
        | cons part parts =>
            simp [splitAt, hc, ih, hRest]

/- A text without the separator is its only part. -/
theorem splitAt_of_not_mem
    {text : List Char}
    (h : separator ∉ text) :
    splitAt separator text = [text] := by
  induction text with
  | nil => simp [splitAt]
  | cons c rest ih =>
      have hc : c ≠ separator := fun e => h (by simp [e])
      have hRest : separator ∉ rest := fun hMem => h (by simp [hMem])
      simp [splitAt, hc, ih hRest]

/- Parts without the separator are joined by it and cut again. -/
theorem splitAt_intercalate
    {parts : List (List Char)}
    (hNe : parts ≠ [])
    (h : ∀ part ∈ parts, separator ∉ part) :
    splitAt separator ([separator].intercalate parts) = parts := by
  induction parts with
  | nil => exact absurd rfl hNe
  | cons part rest ih =>
      rcases List.forall_mem_cons.mp h with ⟨hPart, hRest⟩
      cases rest with
      | nil => simpa using splitAt_of_not_mem hPart
      | cons next others =>
          have hJoin : [separator].intercalate (part :: next :: others) =
              part ++ separator ::
                [separator].intercalate (next :: others) := by
            simp
          rw [hJoin, splitAt_append, splitAt_of_not_mem hPart,
            ih (by simp) hRest]
          rfl

/- A text starts with its first part, up to a separator or the end. -/
theorem eq_of_splitAt_eq_cons
    {text part : List Char}
    {parts : List (List Char)}
    (h : splitAt separator text = part :: parts) :
    (parts = [] ∧ text = part) ∨
      ∃ rest, text = part ++ separator :: rest ∧
        splitAt separator rest = parts := by
  induction text generalizing part with
  | nil =>
      have hBoth : part = [] ∧ parts = [] := by
        simpa [splitAt, eq_comm] using h
      rcases hBoth with ⟨rfl, rfl⟩
      exact Or.inl ⟨rfl, rfl⟩
  | cons c rest ih =>
      by_cases hc : c = separator
      · subst hc
        have hBoth :
            part = [] ∧ splitAt c rest = parts := by
          simpa [splitAt, eq_comm] using h
        rcases hBoth with ⟨rfl, hParts⟩
        exact Or.inr ⟨rest, rfl, hParts⟩
      · cases hRest : splitAt separator rest with
        | nil => exact absurd hRest (splitAt_ne_nil _ _)
        | cons first others =>
            have hBoth :
                part = c :: first ∧ parts = others := by
              simpa [splitAt, hc, hRest, eq_comm] using h
            rcases hBoth with ⟨rfl, rfl⟩
            rcases ih hRest with ⟨hNil, hText⟩ | ⟨tail, hText, hTail⟩
            · exact Or.inl ⟨hNil, by rw [hText]⟩
            · exact Or.inr ⟨tail, by rw [hText]; rfl, hTail⟩

/- Every other character of a text is in one of its parts. -/
theorem exists_mem_splitAt
    {text : List Char}
    {c : Char}
    (hMem : c ∈ text)
    (hc : c ≠ separator) :
    ∃ part ∈ splitAt separator text, c ∈ part := by
  rcases List.append_of_mem hMem with ⟨before, after, rfl⟩
  induction before with
  | nil =>
      cases hAfter : splitAt separator after with
      | nil => exact absurd hAfter (splitAt_ne_nil _ _)
      | cons part parts =>
          exact ⟨c :: part, by simp [splitAt, hc, hAfter], by simp⟩
  | cons first rest ih =>
      rcases ih (by simp) with ⟨part, hPart, hIn⟩
      by_cases hFirst : first = separator
      · exact ⟨part, by simp [splitAt, hFirst, hPart], hIn⟩
      · cases hRest : splitAt separator (rest ++ c :: after) with
        | nil => exact absurd hRest (splitAt_ne_nil _ _)
        | cons head parts =>
            rw [hRest] at hPart
            rcases List.mem_cons.mp hPart with rfl | hTail
            · exact ⟨first :: part, by simp [splitAt, hFirst, hRest],
                by simp [hIn]⟩
            · exact ⟨part, by simp [splitAt, hFirst, hRest, hTail], hIn⟩

/- The parts of a text with a separator before each of them. -/
theorem flatMap_splitAt
    (separator : Char)
    (text : List Char) :
    (splitAt separator text).flatMap (separator :: ·) =
      separator :: text := by
  induction text with
  | nil => simp [splitAt]
  | cons c rest ih =>
      by_cases hc : c = separator
      · simp [splitAt, hc, ih]
      · cases hRest : splitAt separator rest with
        | nil => exact absurd hRest (splitAt_ne_nil _ _)
        | cons part parts =>
            rw [hRest, List.flatMap_cons, List.cons_append] at ih
            have hTail := (List.cons.inj ih).2
            simp [splitAt, hc, hRest, hTail]

/- How far parts reach with a separator after each of them. -/
def width : List (List Char) → Nat
| [] => 0
| part :: parts => part.length + 1 + width parts

@[simp] theorem width_nil : width [] = 0 := rfl

@[simp] theorem width_cons
    (part : List Char)
    (parts : List (List Char)) :
    width (part :: parts) = part.length + 1 + width parts := rfl

/- The parts of a text reach over all of it. -/
theorem width_splitAt
    (separator : Char)
    (text : List Char) :
    width (splitAt separator text) = text.length + 1 := by
  induction text with
  | nil => simp [splitAt]
  | cons c rest ih =>
      by_cases hc : c = separator
      · rw [splitAt, if_pos hc, width_cons, ih]
        simp [Nat.add_comm]
      · cases hRest : splitAt separator rest with
        | nil => exact absurd hRest (splitAt_ne_nil _ _)
        | cons part parts =>
            rw [hRest, width_cons] at ih
            simp only [splitAt, hc, hRest, if_false, width_cons,
              List.length_cons]
            omega

/- What is in a part is in the text. -/
theorem mem_of_mem_splitAt
    {text part : List Char}
    {c : Char}
    (hPart : part ∈ splitAt separator text)
    (hMem : c ∈ part)
    (hc : c ≠ separator) :
    c ∈ text := by
  have hAll : c ∈ (splitAt separator text).flatMap (separator :: ·) :=
    List.mem_flatMap.mpr ⟨part, hPart, List.mem_cons_of_mem _ hMem⟩
  rw [flatMap_splitAt] at hAll
  exact (List.mem_cons.mp hAll).resolve_left hc

/- No part holds the separator. -/
theorem not_mem_of_mem_splitAt
    {text part : List Char}
    (h : part ∈ splitAt separator text) :
    separator ∉ part := by
  induction text generalizing part with
  | nil =>
      have hPart : part = [] := by simpa [splitAt] using h
      simp [hPart]
  | cons c rest ih =>
      by_cases hc : c = separator
      · rcases List.mem_cons.mp (by simpa [splitAt, hc] using h) with
          hPart | hPart
        · simp [hPart]
        · exact ih hPart
      · cases hRest : splitAt separator rest with
        | nil => exact absurd hRest (splitAt_ne_nil _ _)
        | cons first others =>
            have hMem : part = c :: first ∨ part ∈ others := by
              simpa [splitAt, hc, hRest] using h
            rcases hMem with hPart | hPart
            · have hFirst : separator ∉ first := ih (by simp [hRest])
              simp [hPart, hFirst, Ne.symm hc]
            · exact ih (by simp [hRest, hPart])

/- The first parts of a text are those of a text it starts with. -/
theorem exists_prefix_splitAt_eq
    {text : List Char}
    {before after : List (List Char)}
    (hBefore : before ≠ [])
    (h : splitAt separator text = before ++ after) :
    ∃ start, start <+: text ∧
      splitAt separator start = before ∧
      start.length + 1 = width before := by
  induction before generalizing text with
  | nil => exact absurd rfl hBefore
  | cons part parts ih =>
      have hPart : separator ∉ part :=
        @not_mem_of_mem_splitAt separator text _ (by simp [h])
      rcases eq_of_splitAt_eq_cons h with
        ⟨hNil, hText⟩ | ⟨rest, hText, hRest⟩
      · rcases List.append_eq_nil_iff.mp hNil with ⟨rfl, rfl⟩
        refine ⟨text, List.prefix_refl _, by simpa using h, ?_⟩
        simp [hText]
      · by_cases hParts : parts = []
        · refine ⟨part, ⟨separator :: rest, hText.symm⟩, ?_, ?_⟩
          · rw [splitAt_of_not_mem hPart, hParts]
          · simp [hParts]
        · rcases ih hParts hRest with
            ⟨start, ⟨tail, hStart⟩, hSplit, hLength⟩
          refine ⟨part ++ separator :: start, ⟨tail, ?_⟩, ?_, ?_⟩
          · simp [hText, ← hStart]
          · rw [splitAt_append, splitAt_of_not_mem hPart, hSplit]
            rfl
          · simp only [List.length_append, List.length_cons,
              width_cons]
            omega

end Parts

------------------------------------------------------------
-- The Last Place of a Separator
------------------------------------------------------------

section Last

variable {separator text before after : List Char}

/- A text is cut wherever the separator stands in it. -/
theorem splitLast_eq_none_iff (hNe : separator ≠ []) :
    splitLast separator text = none ↔
      occursIn separator text = false := by
  induction text with
  | nil => simp [splitLast, occursIn, hNe]
  | cons c rest ih =>
      cases hRest : splitLast separator rest with
      | some pair =>
          have hOccurs : occursIn separator rest ≠ false := by
            rw [Ne, ← ih, hRest]
            simp
          simp [splitLast, occursIn, hRest, hOccurs]
      | none =>
          rw [hRest] at ih
          simp only [splitLast, occursIn, hRest, ih.mp rfl,
            Bool.or_false]
          cases separator.isPrefixOf (c :: rest) <;> simp

/- A pattern occurs in a text if it is a part of it. -/
theorem occursIn_iff_isInfix {pattern : List Char} :
    occursIn pattern text = true ↔ pattern <:+: text := by
  induction text with
  | nil => simp [occursIn]
  | cons c rest ih =>
      rw [occursIn, Bool.or_eq_true, ih, List.isPrefixOf_iff_prefix,
        List.infix_cons_iff]

/- Where a text is cut, the separator stands. -/
theorem eq_of_splitLast
    (h : splitLast separator text = some (before, after)) :
    text = before ++ separator ++ after := by
  induction text generalizing before with
  | nil => simp [splitLast] at h
  | cons c rest ih =>
      cases hRest : splitLast separator rest with
      | some pair =>
          rcases pair with ⟨first, second⟩
          simp only [splitLast, hRest, Option.some.injEq,
            Prod.mk.injEq] at h
          rcases h with ⟨rfl, rfl⟩
          rw [ih hRest]
          rfl
      | none =>
          simp only [splitLast, hRest] at h
          split at h
          · rename_i hPrefix
            rcases List.isPrefixOf_iff_prefix.mp hPrefix with
              ⟨others, hOthers⟩
            simp only [Option.some.injEq, Prod.mk.injEq] at h
            rcases h with ⟨rfl, rfl⟩
            simp [← hOthers]
          · simp at h

/- What stands before a text that is cut is not looked into. -/
theorem splitLast_append
    (front : List Char)
    (h : splitLast separator text = some (before, after)) :
    splitLast separator (front ++ text) =
      some (front ++ before, after) := by
  induction front with
  | nil => exact h
  | cons c rest ih => simp [splitLast, ih]

theorem splitLast_singleton_eq_none_iff {c : Char} :
    splitLast [c] text = none ↔ c ∉ text := by
  rw [splitLast_eq_none_iff (List.cons_ne_nil c []),
    ← Bool.not_eq_true, occursIn_iff_isInfix,
    List.singleton_infix_iff]

/- A text is cut at a character where that stands for the last time. -/
theorem splitLast_singleton_iff {c : Char} :
    splitLast [c] text = some (before, after) ↔
      text = before ++ c :: after ∧ c ∉ after := by
  constructor
  · intro h
    have hText := eq_of_splitLast h
    rw [List.append_assoc, List.singleton_append] at hText
    refine ⟨hText, fun hMem => ?_⟩
    -- a later place would be in the text that is cut off
    cases hAfter : splitLast [c] after with
    | none => exact splitLast_singleton_eq_none_iff.mp hAfter hMem
    | some pair =>
        have hLater := splitLast_append (before ++ [c]) hAfter
        rw [List.append_assoc, List.singleton_append, ← hText, h]
          at hLater
        have hLength := congrArg List.length
          (Prod.mk.inj (Option.some.inj hLater)).1
        simp at hLength
  · rintro ⟨rfl, hAfter⟩
    have hHere : splitLast [c] (c :: after) = some ([], after) := by
      rw [splitLast, splitLast_singleton_eq_none_iff.mpr hAfter]
      simp [List.isPrefixOf]
    simpa using splitLast_append before hHere

end Last

end Bindery.Text

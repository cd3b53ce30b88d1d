import Mathlib.Data.List.Induction
import Mathlib.Data.List.Nodup

/-
  This file is about lists of names in which a name may stand
  more than once: what is left if only the first places of all
  names are kept, where the further places are, and what stays
  the same if all names are changed.

  Key theorems include:
    * `eraseDups_concat`
    * `eraseDups_map`
    * `count_map`
    * `nodup_eraseDups`
    * `eraseDups_of_nodup`
    * `eraseDups_filter`
    * `pairwise_idxOf_eraseDups`
    * `idxOfNth_append`
-/

namespace Bindery

section Changes

variable {α β : Type} [BEq α] [LawfulBEq α] [BEq β] [LawfulBEq β]
variable {change : α → β} {items : List α} {item : α}

/- A further item is kept if it is new. -/
theorem eraseDups_concat
    (items : List α)
    (item : α) :
    (items ++ [item]).eraseDups =
      if item ∈ items then items.eraseDups
      else items.eraseDups ++ [item] := by
  rw [List.eraseDups_append, List.cons_removeAll]
  by_cases hOld : item ∈ items
  · simp [hOld]
  · simp [hOld, List.eraseDups_cons]

/- A change that tells items apart keeps the places of repeats. -/
theorem eraseDups_map
    (h : ∀ item ∈ items, ∀ other ∈ items,
      change item = change other → item = other) :
    (items.map change).eraseDups = items.eraseDups.map change := by
  induction items using List.reverseRecOn with
  | nil => rfl
  | append_singleton items item ih =>
      have hItems := ih fun first hFirst second hSecond =>
        h first (List.mem_append_left _ hFirst)
          second (List.mem_append_left _ hSecond)
      have hOld : change item ∈ items.map change ↔ item ∈ items := by
        refine ⟨fun hMem => ?_, List.mem_map_of_mem⟩
        rcases List.mem_map.mp hMem with ⟨other, hOther, hSame⟩
        rwa [← h other (List.mem_append_left _ hOther) item (by simp)
          hSame]
      rw [List.map_append, List.map_singleton, eraseDups_concat,
        eraseDups_concat, hItems]
      by_cases hMem : item ∈ items
      · rw [if_pos (hOld.mpr hMem), if_pos hMem]
      · rw [if_neg (mt hOld.mp hMem), if_neg hMem, List.map_append,
          List.map_singleton]

/- An item that a change tells from the others is there as often. -/
theorem count_map
    (h : ∀ other ∈ items, change other = change item → other = item) :
    (items.map change).count (change item) = items.count item := by
  rw [List.count, List.count, List.countP_map]
  refine List.countP_congr fun other hOther => ?_
  simp only [Function.comp_apply, beq_iff_eq]
  exact ⟨h other hOther, congrArg change⟩

end Changes

theorem nodup_eraseDups (names : List String) :
    names.eraseDups.Nodup := by
  induction names using List.reverseRecOn with
  | nil => exact List.nodup_nil
  | append_singleton names name ih =>
      rw [eraseDups_concat]
      split
      · exact ih
      · rename_i hNew
        rw [← List.concat_eq_append]
        exact ih.concat (by simpa using hNew)

/- Where nothing is repeated, nothing is left out. -/
theorem eraseDups_of_nodup
    {names : List String}
    (h : names.Nodup) :
    names.eraseDups = names := by
  induction names with
  | nil => simp
  | cons name rest ih =>
      rcases List.nodup_cons.mp h with ⟨hNew, hRest⟩
      have hKeep : rest.filter (fun other => !other == name) = rest := by
        apply List.filter_eq_self.mpr
        intro other hOther
        have hNe : other ≠ name := fun hEq => hNew (hEq ▸ hOther)
        simp [hNe]
      rw [List.eraseDups_cons, hKeep, ih hRest]

/- It does not matter whether names are left out before or after. -/
theorem eraseDups_filter
    (holds : String → Bool)
    (names : List String) :
    (names.filter holds).eraseDups = names.eraseDups.filter holds := by
  induction names using List.reverseRecOn with
  | nil => rfl
  | append_singleton names name ih =>
      rw [List.filter_append, eraseDups_concat]
      by_cases hHolds : holds name = true
      · rw [List.filter_cons_of_pos hHolds, List.filter_nil,
          eraseDups_concat, ih]
        by_cases hOld : name ∈ names
        · simp [hOld, hHolds]
        · simp [hOld, hHolds]
      · rw [List.filter_cons_of_neg hHolds, List.filter_nil,
          List.append_nil, ih]
        split
        · rfl
        · simp [hHolds]

/- What is left is in the order of the first places. -/
theorem pairwise_idxOf_eraseDups (names : List String) :
    names.eraseDups.Pairwise fun name later =>
      names.idxOf name < names.idxOf later := by
  induction names using List.reverseRecOn with
  | nil => simp
  | append_singleton names name ih =>
      have hKept : names.eraseDups.Pairwise fun first later =>
          (names ++ [name]).idxOf first <
            (names ++ [name]).idxOf later := by
        refine ih.imp_of_mem fun hFirst hLater hLess => ?_
        rwa [List.idxOf_append_of_mem (List.mem_eraseDups.mp hFirst),
          List.idxOf_append_of_mem (List.mem_eraseDups.mp hLater)]
      rw [eraseDups_concat]
      split
      · exact hKept
      · rename_i hNew
        refine List.pairwise_append.mpr
          ⟨hKept, List.pairwise_singleton _ _, fun first hFirst => ?_⟩
        have hOld := List.mem_eraseDups.mp hFirst
        simp only [List.forall_mem_singleton]
        rw [List.idxOf_append_of_mem hOld,
          List.idxOf_append_of_notMem hNew]
        exact Nat.lt_add_right _ (List.idxOf_lt_length_of_mem hOld)

/-
  The places of a name in a list come before its places in what
  is appended.
-/
theorem idxOfNth_append
    (before after : List String)
    (name : String)
    (n : Nat) :
    (before ++ after).idxOfNth name n =
      if n < before.count name then before.idxOfNth name n
      else before.length +
        after.idxOfNth name (n - before.count name) := by
  induction before generalizing n with
  | nil => simp
  | cons first rest ih => grind

end Bindery

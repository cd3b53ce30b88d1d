import Bindery.Sorting
import Mathlib.Data.List.Sort
import Mathlib.Data.String.Basic

/-
  This file says that sorting is insertion sort: it changes
  nothing but the order, and afterwards no key is greater than
  a later one.

  Key theorems include:
    * `sortOn_eq_insertionSort`
    * `sortOn_perm`
    * `pairwise_sortOn`
    * `pairwise_sortOn_of_nodup`
    * `ascending_eq_of_perm`
-/

namespace Bindery

------------------------------------------------------------
-- Sorting by Keys
------------------------------------------------------------

section Keys

variable {α : Type} {key : α → String} {items : List α}

theorem insertOn_eq_orderedInsert
    (key : α → String)
    (a : α)
    (items : List α) :
    insertOn key a items =
      items.orderedInsert (fun a b => key a ≤ key b) a := by
  induction items with
  | nil => rfl
  | cons first rest ih => rw [insertOn, List.orderedInsert, ih]

/- Elements are sorted by inserting one after the other. -/
theorem sortOn_eq_insertionSort
    (key : α → String)
    (items : List α) :
    sortOn key items =
      items.insertionSort (fun a b => key a ≤ key b) := by
  induction items with
  | nil => rfl
  | cons a rest ih =>
      rw [List.insertionSort_cons, ← ih, ← insertOn_eq_orderedInsert]
      rfl

/- Sorting changes nothing but the order. -/
theorem sortOn_perm
    (key : α → String)
    (items : List α) :
    (sortOn key items).Perm items := by
  rw [sortOn_eq_insertionSort]
  exact List.perm_insertionSort _ items

theorem pairwise_sortOn
    (key : α → String)
    (items : List α) :
    (sortOn key items).Pairwise (fun a b => key a ≤ key b) := by
  have hTotal : Std.Total (fun a b : α => key a ≤ key b) :=
    ⟨fun a b => le_total (key a) (key b)⟩
  have hTrans : IsTrans α (fun a b => key a ≤ key b) :=
    ⟨fun _ _ _ => le_trans⟩
  rw [sortOn_eq_insertionSort]
  exact List.pairwise_insertionSort _ items

/- Distinct keys are strictly ascending after sorting. -/
theorem pairwise_sortOn_of_nodup
    (h : (items.map key).Nodup) :
    (sortOn key items).Pairwise (fun a b => key a < key b) := by
  have hNodup : ((sortOn key items).map key).Nodup :=
    ((sortOn_perm key items).map key).nodup_iff.mpr h
  refine ((pairwise_sortOn key items).and
    (List.pairwise_map.mp hNodup)).imp ?_
  rintro a b ⟨hLe, hNe⟩
  exact lt_of_le_of_ne hLe hNe

end Keys

------------------------------------------------------------
-- Texts in Order
------------------------------------------------------------

theorem ascending_perm (texts : List String) :
    (ascending texts).Perm texts :=
  sortOn_perm id texts

theorem pairwise_ascending (texts : List String) :
    (ascending texts).Pairwise (· ≤ ·) :=
  pairwise_sortOn id texts

/- Distinct texts are strictly ascending after sorting. -/
theorem pairwise_ascending_of_nodup
    {texts : List String}
    (h : texts.Nodup) :
    (ascending texts).Pairwise (· < ·) := by
  have hKeys : (texts.map id).Nodup := by rwa [List.map_id]
  exact pairwise_sortOn_of_nodup hKeys

/- Texts have one ascending order. -/
theorem ascending_eq_of_perm
    {texts others : List String}
    (h : others.Perm texts) :
    ascending others = ascending texts :=
  ((ascending_perm others).trans
    (h.trans (ascending_perm texts).symm)).eq_of_pairwise'
      (pairwise_ascending others) (pairwise_ascending texts)

end Bindery

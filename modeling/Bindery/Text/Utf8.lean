/-
  This file defines how many bytes a text takes in UTF-8.

  Key definitions include:
    * `byteLength`

  Key theorems include:
    * `byteLength_le_of_sublist`
    * `byteLength_append`
    * `byteLength_eq_length`
-/

namespace Bindery.Text

/- Number of bytes of a text in UTF-8. -/
def byteLength (text : List Char) : Nat :=
  text.foldr (fun c count => c.utf8Size + count) 0

@[simp] theorem byteLength_nil : byteLength [] = 0 := rfl

@[simp] theorem byteLength_cons
    (c : Char)
    (text : List Char) :
    byteLength (c :: text) = c.utf8Size + byteLength text := rfl

/- A part of a text is not longer than the text. -/
theorem byteLength_le_of_sublist
    {part text : List Char}
    (h : part.Sublist text) :
    byteLength part ≤ byteLength text := by
  induction h with
  | slnil => exact Nat.le_refl _
  | cons c _ ih => exact Nat.le_trans ih (Nat.le_add_left _ _)
  | cons_cons c _ ih => exact Nat.add_le_add_left ih _

theorem byteLength_append (first second : List Char) :
    byteLength (first ++ second) =
      byteLength first + byteLength second := by
  induction first with
  | nil => simp
  | cons c rest ih => simp [ih, Nat.add_assoc]

theorem byteLength_replicate
    (count : Nat)
    (c : Char) :
    byteLength (List.replicate count c) = count * c.utf8Size := by
  induction count with
  | zero => simp
  | succ count ih =>
      rw [List.replicate_succ, byteLength_cons, ih, Nat.succ_mul,
        Nat.add_comm]

/- A text of characters that take one byte each. -/
theorem byteLength_eq_length
    {text : List Char}
    (h : ∀ c ∈ text, c.utf8Size = 1) :
    byteLength text = text.length := by
  induction text with
  | nil => rfl
  | cons c rest ih =>
      rw [List.forall_mem_cons] at h
      rw [byteLength_cons, ih h.2, h.1, List.length_cons, Nat.add_comm]

end Bindery.Text

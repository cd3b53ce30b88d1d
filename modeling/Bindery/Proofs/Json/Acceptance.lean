import Bindery.Proofs.Json.Grammar
import Mathlib.Data.List.DropRight

/-
  This file says what it means that a reader reads what is
  spelled in a certain way.  What the reader yields and what it
  leaves of the text are all that counts; the line and the column
  that it has reached are not.

  Key definitions include:
    * `Leaves`
    * `Accepts`

  Key theorems include:
    * `leaves_bind_iff`
    * `leaves_bind_iff_of_accepts`
    * `Cursor.rest_skipBlanks`
-/

namespace Bindery.Json

------------------------------------------------------------
-- Results of Reading
------------------------------------------------------------

section Results

variable {α β : Type}

/- Reading has succeeded with a value, and this is left to read. -/
def Leaves
    (result : Except ReadError (α × Cursor))
    (a : α)
    (t : List Char) : Prop :=
  ∃ c, result = .ok (a, c) ∧ c.rest = t

/- A reader succeeds on what is spelled in a certain way only. -/
def Accepts (read : Reader α) (spelling : Spelling α) : Prop :=
  ∀ c a t, Leaves (read c) a t ↔ spelling a c.rest t

variable {a : α} {b : β} {c : Cursor} {t : List Char}

@[simp] theorem leaves_ok_iff {other : α} :
    Leaves (.ok (other, c)) a t ↔ other = a ∧ c.rest = t := by
  simp [Leaves, and_assoc]

@[simp] theorem not_leaves_error {e : ReadError} :
    ¬ Leaves (.error e) a t := by
  simp [Leaves]

@[simp] theorem not_leaves_failHere {fault : Fault} :
    ¬ Leaves (c.failHere fault) a t :=
  not_leaves_error

theorem failAhead_ne_ok {fault : Fault} : c.failAhead fault ≠ .ok a := by
  unfold Cursor.failAhead
  split
  · simp
  · split
    · simp
    · simp

@[simp] theorem not_leaves_failAhead {fault : Fault} :
    ¬ Leaves (c.failAhead fault) a t :=
  fun ⟨_, hOk, _⟩ => failAhead_ne_ok hOk

/- What comes next starts with what is left. -/
theorem leaves_bind_iff
    {result : Except ReadError (α × Cursor)}
    {next : α × Cursor → Except ReadError (β × Cursor)}
    {q p : α → List Char → Prop}
    (hResult : ∀ a u, Leaves result a u ↔ q a u)
    (hNext : ∀ a c', q a c'.rest →
      (Leaves (next (a, c')) b t ↔ p a c'.rest)) :
    Leaves (result >>= next) b t ↔ ∃ a u, q a u ∧ p a u := by
  constructor
  · intro h
    cases result with
    | error e => exact absurd h not_leaves_error
    | ok pair =>
        rcases pair with ⟨a, c'⟩
        have hFirst := (hResult a c'.rest).mp ⟨c', rfl, rfl⟩
        exact ⟨a, c'.rest, hFirst, (hNext a c' hFirst).mp h⟩
  · rintro ⟨a, u, hFirst, hSecond⟩
    rcases (hResult a u).mpr hFirst with ⟨c', rfl, rfl⟩
    exact (hNext a c' hFirst).mpr hSecond

theorem leaves_bind_iff_of_accepts
    {read : Reader α}
    {spelling : Spelling α}
    (hRead : Accepts read spelling)
    {next : α × Cursor → Except ReadError (β × Cursor)}
    {p : α → List Char → Prop}
    (hNext : ∀ a c', spelling a c.rest c'.rest →
      (Leaves (next (a, c')) b t ↔ p a c'.rest)) :
    Leaves (read c >>= next) b t ↔
      ∃ a u, spelling a c.rest u ∧ p a u :=
  leaves_bind_iff (hRead c) hNext

/- The same for a reader that only goes on. -/
theorem leaves_bind_iff_of_skips
    {read : Reader Unit}
    {skips : List Char → List Char → Prop}
    (hRead : Accepts read fun _ => skips)
    {next : Unit × Cursor → Except ReadError (β × Cursor)}
    {p : List Char → Prop}
    (hNext : ∀ c', skips c.rest c'.rest →
      (Leaves (next ((), c')) b t ↔ p c'.rest)) :
    Leaves (read c >>= next) b t ↔
      ∃ u, skips c.rest u ∧ p u := by
  rw [leaves_bind_iff_of_accepts (p := fun _ => p) hRead
    fun _ => hNext]
  simp

end Results

------------------------------------------------------------
-- Places
------------------------------------------------------------

namespace Cursor

@[simp] theorem rest_next (c : Cursor) : c.next.rest = c.rest.tail := by
  unfold next
  split
  · simp_all
  · split <;> simp_all

@[simp] theorem rest_advance
    (n : Nat)
    (c : Cursor) :
    (c.advance n).rest = c.rest.drop n := by
  induction n generalizing c with
  | zero => rfl
  | succ n ih => rw [advance, ih, rest_next, List.drop_tail]

theorem rest_skipFrom
    (line column : Nat)
    (s : List Char) :
    (skipFrom line column s).rest = afterGap s := by
  induction s generalizing line column with
  | nil => rfl
  | cons x rest ih =>
      unfold skipFrom afterGap
      rw [List.dropWhile_cons]
      split
      · split
        · exact ih _ _
        · exact ih _ _
      · rfl

@[simp] theorem rest_skipBlanks (c : Cursor) :
    c.skipBlanks.rest = afterGap c.rest :=
  rest_skipFrom c.line c.column c.rest

@[simp] theorem rest_start (text : String) :
    (start text).rest = text.toList := rfl

end Cursor

@[simp] theorem afterGap_nil : afterGap [] = [] := rfl

theorem afterGap_cons_of_not_isGap
    {x : Char}
    {s : List Char}
    (h : Cursor.isGap x = false) :
    afterGap (x :: s) = x :: s := by
  simp [afterGap, h]

/- What is left after blanks starts with none. -/
@[simp] theorem afterGap_afterGap (s : List Char) :
    afterGap (afterGap s) = afterGap s :=
  List.dropWhile_idempotent _ s

theorem length_afterGap_le (s : List Char) :
    (afterGap s).length ≤ s.length :=
  (List.dropWhile_sublist _).length_le

end Bindery.Json

import Bindery.Proofs.Json.Acceptance
import Bindery.Proofs.Text.Separated
import Mathlib.Tactic.SplitIfs

/-
  This file is about the places of a text: a line, counted from
  one, and a number of bytes in it.  A reader that starts in a
  text stays in it: it goes on to a place of the text, or it
  fails at one.

  Key definitions include:
    * `linesOf`
    * `IsPlace`
    * `Cursor.IsIn`
    * `StaysIn`
    * `Stays`

  Key theorems include:
    * `Cursor.isIn_start`
    * `Cursor.IsIn.next`
    * `Cursor.IsIn.skipBlanks`
    * `Cursor.IsIn.isPlace_advanceBytes`
    * `StaysIn.bind`
-/

namespace Bindery.Json

open Text (byteLength splitAt)

------------------------------------------------------------
-- Lines
------------------------------------------------------------

/- The lines of a text, without the breaks between them. -/
def linesOf (text : List Char) : List (List Char) :=
  splitAt '\n' text

/-
  Whether a text has a line with a number and so many bytes in
  that line.
-/
def IsPlace (text : List Char) (line column : Nat) : Prop :=
  ∃ passed here later, linesOf text = passed ++ here :: later ∧
    line = passed.length + 1 ∧ column ≤ byteLength here

section Lines

variable {text rest line : List Char} {later : List (List Char)}

theorem exists_linesOf (text : List Char) :
    ∃ line later, linesOf text = line :: later :=
  List.exists_cons_of_ne_nil (Text.splitAt_ne_nil _ _)

/- After its first line a text is over, or a break follows. -/
theorem eq_of_linesOf_eq_cons
    (h : linesOf text = line :: later) :
    '\n' ∉ line ∧
      (later = [] ∧ text = line ∨
        ∃ rest, text = line ++ '\n' :: rest ∧ linesOf rest = later) := by
  have hLine : line ∈ linesOf text := by
    rw [h]
    exact List.mem_cons_self
  exact ⟨Text.not_mem_of_mem_splitAt hLine,
    Text.eq_of_splitAt_eq_cons h⟩

theorem linesOf_break (rest : List Char) :
    linesOf ('\n' :: rest) = [] :: linesOf rest :=
  Text.splitAt_append '\n' [] rest

theorem linesOf_cons
    {x : Char}
    (hx : x ≠ '\n')
    (h : linesOf rest = line :: later) :
    linesOf (x :: rest) = (x :: line) :: later := by
  rw [linesOf] at h ⊢
  simp [splitAt, hx, h]

end Lines

------------------------------------------------------------
-- Cursors
------------------------------------------------------------

namespace Cursor

/-
  Whether a cursor stands in a text: it has passed some lines and
  the start of one, and all others are left.
-/
def IsIn (text : List Char) (c : Cursor) : Prop :=
  ∃ passed before after later,
    linesOf text = passed ++ (before ++ after) :: later ∧
    linesOf c.rest = after :: later ∧
    c.line = passed.length + 1 ∧
    c.column = byteLength before

variable {text : List Char} {c : Cursor}

theorem isIn_start (text : String) : (start text).IsIn text.toList := by
  rcases exists_linesOf text.toList with ⟨line, later, hLines⟩
  exact ⟨[], [], line, later, hLines, hLines, rfl, rfl⟩

namespace IsIn

theorem isPlace (h : c.IsIn text) : IsPlace text c.line c.column := by
  rcases h with ⟨passed, before, after, later, hText, -, hLine, hColumn⟩
  refine ⟨passed, before ++ after, later, hText, hLine, ?_⟩
  rw [hColumn, Text.byteLength_append]
  exact Nat.le_add_right _ _

/- Bytes of the next character are on the line, too. -/
theorem isPlace_within
    {x : Char}
    {rest : List Char}
    {n : Nat}
    (h : c.IsIn text)
    (hRest : c.rest = x :: rest)
    (hx : x ≠ '\n')
    (hn : n ≤ x.utf8Size) :
    IsPlace text c.line (c.column + n) := by
  rcases h with
    ⟨passed, before, after, later, hText, hAfter, hLine, hColumn⟩
  rcases exists_linesOf rest with ⟨line, others, hLines⟩
  rw [hRest, linesOf_cons hx hLines] at hAfter
  obtain ⟨rfl, rfl⟩ := List.cons.inj hAfter
  refine ⟨passed, before ++ x :: line, others, hText, hLine, ?_⟩
  rw [hColumn, Text.byteLength_append, Text.byteLength_cons]
  omega

/- After a line break a cursor stands at the start of a line, ... -/
theorem break_line
    {rest : List Char}
    {line column : Nat}
    (h : IsIn text ⟨'\n' :: rest, line, column⟩) :
    IsIn text ⟨rest, line + 1, 0⟩ := by
  rcases h with ⟨passed, before, after, later, hText, hAfter, hLine, -⟩
  rcases exists_linesOf rest with ⟨next, others, hLines⟩
  rw [linesOf_break, hLines] at hAfter
  obtain ⟨rfl, rfl⟩ := List.cons.inj hAfter
  refine ⟨passed ++ [before ++ []], [], next, others, ?_, hLines, ?_, rfl⟩
  · rw [hText, List.append_assoc]
    rfl
  · simpa using hLine

/- ... and after another character further on in its line. -/
theorem pass_char
    {x : Char}
    {rest : List Char}
    {line column : Nat}
    (h : IsIn text ⟨x :: rest, line, column⟩)
    (hx : x ≠ '\n') :
    IsIn text ⟨rest, line, column + x.utf8Size⟩ := by
  rcases h with
    ⟨passed, before, after, later, hText, hAfter, hLine, hColumn⟩
  rcases exists_linesOf rest with ⟨next, others, hLines⟩
  rw [linesOf_cons hx hLines] at hAfter
  obtain ⟨rfl, rfl⟩ := List.cons.inj hAfter
  refine ⟨passed, before ++ [x], next, others, ?_, hLines, hLine, ?_⟩
  · rw [hText, List.append_assoc]
    rfl
  · simpa [Text.byteLength_append] using hColumn

theorem next (h : c.IsIn text) : c.next.IsIn text := by
  rcases c with ⟨rest, line, column⟩
  cases rest with
  | nil => exact h
  | cons x rest =>
      by_cases hx : x = '\n'
      · subst hx
        exact h.break_line
      · have hNext := h.pass_char hx
        rw [Cursor.next]
        simpa [hx] using hNext

theorem advance (n : Nat) (h : c.IsIn text) :
    (c.advance n).IsIn text := by
  induction n generalizing c with
  | zero => exact h
  | succ n ih => exact ih h.next

theorem skipFrom
    {s : List Char}
    {line column : Nat}
    (h : IsIn text ⟨s, line, column⟩) :
    (Cursor.skipFrom line column s).IsIn text := by
  fun_induction Cursor.skipFrom line column s with
  | case1 => exact h
  | case2 line column rest _ ih => exact ih h.break_line
  | case3 line column x rest hGap hx ih =>
      -- all other gaps are single bytes
      have hSize : x.utf8Size = 1 := by
        have hCases : x = ' ' ∨ x = '\t' ∨ x = '\r' := by
          simpa [isGap, hx, or_assoc] using hGap
        rcases hCases with rfl | rfl | rfl <;> rfl
      have hNext := h.pass_char hx
      rw [hSize] at hNext
      exact ih hNext
  | case4 => exact h

theorem skipBlanks (h : c.IsIn text) : c.skipBlanks.IsIn text :=
  skipFrom h

/- Bytes further on there is a place, if within a character. -/
theorem isPlace_passBytes
    {s : List Char}
    {line column : Nat}
    (n : Nat)
    (h : IsIn text ⟨s, line, column⟩) :
    IsPlace text (Cursor.passBytes line column n s).line
      (Cursor.passBytes line column n s).column := by
  induction s generalizing line column n with
  | nil => exact h.isPlace
  | cons x rest ih =>
      rw [Cursor.passBytes]
      split_ifs with hn hx hFits
      · exact h.isPlace
      · subst hx
        exact ih _ h.break_line
      · exact ih _ (h.pass_char hx)
      · exact h.isPlace_within rfl hx (by omega)

theorem isPlace_advanceBytes (n : Nat) (h : c.IsIn text) :
    IsPlace text (c.advanceBytes n).line (c.advanceBytes n).column :=
  isPlace_passBytes n h

end IsIn

end Cursor

------------------------------------------------------------
-- Readers
------------------------------------------------------------

section Readers

variable {α β : Type} {text : List Char} {c : Cursor} {fault : Fault}

/- Whether reading ends at a place of a text, in any case. -/
def StaysIn (text : List Char) : Except ReadError (α × Cursor) → Prop
| .ok (_, c) => c.IsIn text
| .error e => IsPlace text e.line e.column

/- Whether a reader never leaves the text that it starts in. -/
def Stays (read : Reader α) : Prop :=
  ∀ text c, c.IsIn text → StaysIn text (read c)

theorem staysIn_failHere (h : c.IsIn text) :
    StaysIn text (c.failHere fault : Except ReadError (α × Cursor)) :=
  h.isPlace

/- The next byte is one of the text, if there is one. -/
theorem Cursor.IsIn.isPlace_of_failAhead
    {e : ReadError}
    (h : c.IsIn text)
    (hFail : (c.failAhead fault : Except ReadError α) = .error e) :
    IsPlace text e.line e.column := by
  unfold Cursor.failAhead at hFail
  split at hFail
  · obtain rfl := Except.error.inj hFail
    exact h.isPlace
  · rename_i x rest hRest
    split_ifs at hFail with hx
    · obtain rfl := Except.error.inj hFail
      subst hx
      rcases c with ⟨_, line, column⟩
      obtain rfl : _ = '\n' :: rest := hRest
      exact h.break_line.isPlace
    · obtain rfl := Except.error.inj hFail
      exact h.isPlace_within hRest hx x.utf8Size_pos

theorem staysIn_failAhead (h : c.IsIn text) :
    StaysIn text (c.failAhead fault : Except ReadError (α × Cursor)) := by
  cases hFail : (c.failAhead fault : Except ReadError (α × Cursor)) with
  | ok pair => exact absurd hFail failAhead_ne_ok
  | error e => exact h.isPlace_of_failAhead hFail

/- What stays in a text can be followed by what stays there. -/
theorem StaysIn.bind
    {result : Except ReadError (α × Cursor)}
    {next : α × Cursor → Except ReadError (β × Cursor)}
    (hResult : StaysIn text result)
    (hNext : ∀ a c, c.IsIn text → StaysIn text (next (a, c))) :
    StaysIn text (result >>= next) := by
  cases result with
  | error e => exact hResult
  | ok pair => exact hNext pair.1 pair.2 hResult

end Readers

end Bindery.Json

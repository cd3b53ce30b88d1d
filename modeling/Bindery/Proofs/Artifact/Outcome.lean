import Bindery.Artifact.Writing

/-
  This file says when the parts of a computation on the file
  system succeed or fail, and with which file system they end.

  Key definitions include:
    * `Writing.final`

  Key theorems include:
    * `Writing.bind_eq_ok_iff`
    * `Writing.bind_eq_error_iff`
    * `Writing.final_bind`
    * `Writing.andFinally_eq_ok_iff`
-/

namespace Bindery.Writing

variable {α β : Type} {fs fs' : FileSystem} {e : WriteError}

/- The file system after a computation, however that ends. -/
def final (computation : Writing α) (fs : FileSystem) : FileSystem :=
  match computation fs with
  | .ok _ fs' => fs'
  | .error _ fs' => fs'

theorem final_of_ok
    {computation : Writing α}
    {a : α}
    (h : computation fs = .ok a fs') :
    final computation fs = fs' := by
  simp [final, h]

theorem final_of_error
    {computation : Writing α}
    (h : computation fs = .error e fs') :
    final computation fs = fs' := by
  simp [final, h]

/- A sequence succeeds if its parts do, one after the other. -/
theorem bind_eq_ok_iff
    {first : Writing α}
    {next : α → Writing β}
    {b : β} :
    (first >>= next) fs = .ok b fs' ↔
      ∃ a middle, first fs = .ok a middle ∧
        next a middle = .ok b fs' := by
  cases h : first fs with
  | ok a middle => simp [bind, EStateM.bind, h, and_assoc]
  | error e middle => simp [bind, EStateM.bind, h]

/- A sequence fails where one of its parts does. -/
theorem bind_eq_error_iff
    {first : Writing α}
    {next : α → Writing β} :
    (first >>= next) fs = .error e fs' ↔
      first fs = .error e fs' ∨
        ∃ a middle, first fs = .ok a middle ∧
          next a middle = .error e fs' := by
  cases h : first fs with
  | ok a middle => simp [bind, EStateM.bind, h, and_assoc]
  | error e middle => simp [bind, EStateM.bind, h]

/-
  What holds at the end of the first part, and from there on at
  the end of the second one, holds at the end of a sequence.
-/
theorem final_bind
    {P : FileSystem → Prop}
    {first : Writing α}
    {next : α → Writing β}
    (hFirst : P (final first fs))
    (hNext : ∀ a middle, first fs = .ok a middle → P middle →
      P (final (next a) middle)) :
    P (final (first >>= next) fs) := by
  cases hRun : first fs with
  | ok a middle =>
      rw [final_of_ok hRun] at hFirst
      simpa [final, bind, EStateM.bind, hRun] using
        hNext a middle hRun hFirst
  | error e middle =>
      rw [final_of_error hRun] at hFirst
      simpa [final, bind, EStateM.bind, hRun] using hFirst

theorem perform_eq_ok_iff
    {wrap : FileError → WriteError}
    {operation : FileSystem → Except FileError FileSystem} :
    perform wrap operation fs = .ok () fs' ↔
      operation fs = .ok fs' := by
  unfold perform
  cases operation fs <;> simp

theorem perform_eq_error_iff
    {wrap : FileError → WriteError}
    {operation : FileSystem → Except FileError FileSystem} :
    perform wrap operation fs = .error e fs' ↔
      ∃ cause, operation fs = .error cause ∧ e = wrap cause ∧
        fs' = fs := by
  unfold perform
  cases operation fs <;> simp [eq_comm]

/- An operation that fails leaves the file system as it is. -/
theorem final_perform
    {P : FileSystem → Prop}
    {wrap : FileError → WriteError}
    {operation : FileSystem → Except FileError FileSystem}
    (h : P fs)
    (hOk : ∀ fs', operation fs = .ok fs' → P fs') :
    P (final (perform wrap operation) fs) := by
  cases hRun : operation fs with
  | ok fs' =>
      rw [final_of_ok (perform_eq_ok_iff.mpr hRun)]
      exact hOk fs' hRun
  | error cause =>
      rw [final_of_error (perform_eq_error_iff.mpr
        ⟨cause, hRun, rfl, rfl⟩)]
      exact h

theorem inspect_eq_ok_iff
    {f : FileSystem → Except WriteError α}
    {a : α} :
    inspect f fs = .ok a fs' ↔ f fs = .ok a ∧ fs' = fs := by
  unfold inspect
  cases f fs <;> simp [eq_comm]

theorem inspect_eq_error_iff
    {f : FileSystem → Except WriteError α} :
    inspect f fs = .error e fs' ↔ f fs = .error e ∧ fs' = fs := by
  unfold inspect
  cases f fs <;> simp [eq_comm]

theorem andFinally_eq_ok_iff
    {computation : Writing α}
    {last : FileSystem → FileSystem}
    {a : α} :
    andFinally computation last fs = .ok a fs' ↔
      ∃ before, computation fs = .ok a before ∧ fs' = last before := by
  unfold andFinally
  cases computation fs <;> simp [and_assoc, eq_comm]

theorem andFinally_eq_error_iff
    {computation : Writing α}
    {last : FileSystem → FileSystem} :
    andFinally computation last fs = .error e fs' ↔
      ∃ before, computation fs = .error e before ∧
        fs' = last before := by
  unfold andFinally
  cases computation fs <;> simp [and_assoc, eq_comm]

end Bindery.Writing

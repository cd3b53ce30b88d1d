import Bindery.Proofs.Artifact.Moving
import Bindery.Proofs.Files.Proper

/-
  This file says that what every operation on files keeps is
  kept by writing a set of files, however that ends; so proper
  directories stay proper.

  Key definitions include:
    * `Writing.Preserves`
    * `IsKept`

  Key theorems include:
    * `Writing.Preserves.bind`
    * `IsKept.writeAll`
    * `ArtifactSet.isProper_writeAll`
-/

namespace Bindery

open FileSystem

------------------------------------------------------------
-- Computations That Preserve a Property
------------------------------------------------------------

namespace Writing

variable {α β : Type} {P : FileSystem → Prop}

/- A property that a computation keeps, however it ends. -/
def Preserves
    (P : FileSystem → Prop)
    (computation : Writing α) : Prop :=
  ∀ fs, P fs → P (final computation fs)

namespace Preserves

theorem pure (a : α) :
    Preserves P (Pure.pure a : Writing α) :=
  fun _ h => h

theorem get : Preserves P (MonadState.get : Writing FileSystem) :=
  fun _ h => h

theorem bind
    {first : Writing α}
    {next : α → Writing β}
    (hFirst : Preserves P first)
    (hNext : ∀ a, Preserves P (next a)) :
    Preserves P (first >>= next) :=
  fun fs h => final_bind (hFirst fs h)
    fun a middle _ hMiddle => hNext a middle hMiddle

theorem perform
    {wrap : FileError → WriteError}
    {operation : FileSystem → Except FileError FileSystem}
    (h : ∀ fs fs', P fs → operation fs = .ok fs' → P fs') :
    Preserves P (Writing.perform wrap operation) :=
  fun fs hFs => final_perform hFs fun fs' => h fs fs' hFs

theorem inspect
    (f : FileSystem → Except WriteError α) :
    Preserves P (Writing.inspect f) := by
  intro fs hFs
  cases hRun : f fs with
  | ok a =>
      rw [final_of_ok (inspect_eq_ok_iff.mpr ⟨hRun, rfl⟩)]
      exact hFs
  | error e =>
      rw [final_of_error (inspect_eq_error_iff.mpr ⟨hRun, rfl⟩)]
      exact hFs

theorem andFinally
    {computation : Writing α}
    {last : FileSystem → FileSystem}
    (h : Preserves P computation)
    (hLast : ∀ fs, P fs → P (last fs)) :
    Preserves P (Writing.andFinally computation last) := by
  intro fs hFs
  have hBefore := hLast _ (h fs hFs)
  cases hRun : computation fs with
  | ok a before =>
      rw [final_of_ok hRun] at hBefore
      rwa [final_of_ok (andFinally_eq_ok_iff.mpr ⟨before, hRun, rfl⟩)]
  | error e before =>
      rw [final_of_error hRun] at hBefore
      rwa [final_of_error (andFinally_eq_error_iff.mpr
        ⟨before, hRun, rfl⟩)]

end Preserves

end Writing

------------------------------------------------------------
-- What Every Operation Keeps
------------------------------------------------------------

/- A property that the operations on files keep. -/
structure IsKept (P : FileSystem → Prop) : Prop where
  makeDirectory : ∀ {fs fs'} path, P fs →
    FileSystem.makeDirectory fs path = .ok fs' → P fs'
  writeFile : ∀ {fs fs'} path content, P fs →
    FileSystem.writeFile fs path content = .ok fs' → P fs'
  rename : ∀ {fs fs'} old new, P fs →
    FileSystem.rename fs old new = .ok fs' → P fs'
  remove : ∀ {fs} loc, P fs → P (FileSystem.remove fs loc)

theorem isKept_isProper : IsKept FileSystem.IsProper where
  makeDirectory _ h := h.makeDirectory
  writeFile _ _ h := h.writeFile
  rename _ _ h := h.rename
  remove loc h := h.remove loc

namespace IsKept

open Writing (Preserves)

variable {P : FileSystem → Prop} (h : IsKept P)

include h

theorem createFrom (paths : List String) :
    Preserves P (Bindery.createFrom paths) := by
  induction paths with
  | nil => exact Preserves.pure ()
  | cons path above ih =>
      intro fs hFs
      rcases createFrom_cons_final path above fs with
        hSame | hMade | ⟨-, hSame | hMade⟩
      · rwa [hSame]
      · exact h.makeDirectory path hFs hMade
      · rw [hSame]
        exact ih fs hFs
      · exact h.makeDirectory path (ih fs hFs) hMade

theorem createParent (path : String) :
    Preserves P (Bindery.createParent path) := by
  unfold Bindery.createParent
  split
  · exact h.createFrom _
  · exact Preserves.pure ()

theorem makeStaging
    (parent : String)
    (mentioned : List String) :
    Preserves P (Bindery.makeStaging parent mentioned) := by
  unfold Bindery.makeStaging
  refine (Preserves.inspect _).bind fun taken => ?_
  refine Preserves.bind (Preserves.perform ?_) fun _ => Preserves.pure _
  exact fun _ _ => h.makeDirectory _

theorem stageFiles
    (staging : String)
    (files : List (String × String)) :
    Preserves P (Bindery.stageFiles staging files) := by
  induction files with
  | nil => exact Preserves.pure ()
  | cons file rest ih =>
      rcases file with ⟨path, content⟩
      refine Preserves.bind ((h.createParent _).bind fun _ => ?_)
        fun _ => ih
      exact Preserves.perform fun _ _ => h.writeFile _ _

theorem moveFiles
    (staging root : String)
    (paths : List String) :
    Preserves P (Bindery.moveFiles staging root paths) := by
  induction paths with
  | nil => exact Preserves.pure ()
  | cons path rest ih =>
      rw [moveFiles_cons]
      refine Preserves.bind ((h.createParent _).bind fun _ => ?_)
        fun _ => ih
      exact Preserves.perform fun _ _ => h.rename _ _

theorem removeAt
    {fs : FileSystem}
    (path : String)
    (hFs : P fs) :
    P (Bindery.removeAt path fs) := by
  unfold Bindery.removeAt
  split
  · exact h.remove _ hFs
  · exact hFs

theorem publish
    (set : ArtifactSet)
    (root staging : String) :
    Preserves P (set.publish root staging) := by
  refine (h.stageFiles _ _).bind fun _ => Preserves.get.bind fun fs => ?_
  split
  · exact h.moveFiles _ _ _
  · exact Preserves.perform fun _ _ => h.rename _ _

/- Writing a set of files keeps what the operations keep. -/
theorem writeAll
    (set : ArtifactSet)
    (root : String) :
    Preserves P (set.writeAll root) := by
  refine (Preserves.inspect _).bind fun _ => ?_
  split
  · exact Preserves.pure _
  · refine (h.createFrom _).bind fun _ =>
      (h.makeStaging _ _).bind fun staging => ?_
    exact Preserves.bind
      ((h.publish set root staging).andFinally fun _ => h.removeAt staging)
      fun _ => Preserves.pure _

end IsKept

/- Writing a set of files leaves proper directories proper. -/
theorem ArtifactSet.isProper_writeAll
    {fs : FileSystem}
    (set : ArtifactSet)
    (root : String)
    (h : fs.IsProper) :
    (Writing.final (set.writeAll root) fs).IsProper :=
  isKept_isProper.writeAll set root fs h

end Bindery

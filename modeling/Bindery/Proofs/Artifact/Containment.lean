import Bindery.Proofs.Artifact.Publishing

/-
  This file says that writing a set of files stays inside the
  output directory, whatever its paths are and however it ends.

  Key theorems include:
    * `ArtifactSet.writeAll_contained`
-/

namespace Bindery

open FileSystem
open Bindery.Path (Step EndsIn Component)

------------------------------------------------------------
-- Containment
------------------------------------------------------------

namespace ArtifactSet

/-
  Without links, no file outside of where the output directory
  leads is changed.  A set with a path that is empty, starts at
  the root or goes up is refused, and nothing is changed then.
-/
theorem writeAll_contained
    (set : ArtifactSet)
    (root : String)
    (fs : FileSystem)
    (hLinks : NoLinks fs) :
    (∀ loc, ¬ destination fs.home root <+: loc → ∀ content,
      (Writing.final (set.writeAll root) fs).entryAt? loc =
          some (.file content) ↔
        fs.entryAt? loc = some (.file content)) ∧
    ((∃ path ∈ set.paths, path = "" ∨ Path.isAbsolute path = true ∨
        .parent ∈ Path.components path) →
      ∃ e, set.writeAll root fs = .error e fs) := by
  have hCases := set.writeAll_cases root fs
  constructor
  · intro loc hLoc content
    rcases hCases with ⟨e, -, hRun⟩ | ⟨-, hRun⟩ | ⟨-, e, hRun⟩ |
      ⟨grown, base, name, hStaging, hRun⟩
    · rw [Writing.final_of_error hRun]
    · rw [Writing.final_of_ok hRun]
    · rw [Writing.final_of_error hRun]
      exact (SparesFiles.of_grows (loc ++ ["."]) _
        (createDirectories_grows (stagingParent root) fs)).same loc
          (not_snoc_isPrefix loc ".") hLoc content
    · have hFinal : Writing.final (set.writeAll root) fs =
          Writing.final
            (set.publishAndClear root
              (Path.join (stagingParent root) name))
            (grown.withStaging base name) := by
        unfold Writing.final
        rw [hRun]
      rw [hFinal]
      exact hStaging.publishAndClear_spares hLinks hLoc content
  · rintro ⟨path, hPath, hBad⟩
    have hNot : ¬ Path.StaysInside path := by
      intro hInside
      rcases hBad with hEmpty | hAbsolute | hParent
      · exact hInside.ne_empty hEmpty
      · simp [hInside.relative] at hAbsolute
      · exact parent_mem_components_iff.mp hParent hInside.forward
    rcases hCases with ⟨e, -, hRun⟩ | ⟨hEmpty, -⟩ | ⟨hChecks, -⟩ |
      ⟨grown, base, name, hStaging, -⟩
    · exact ⟨e, hRun⟩
    · simp [ArtifactSet.paths, Keyed.keys,
        List.isEmpty_iff.mp hEmpty] at hPath
    · exact absurd (checkPaths_eq_ok_iff.mp hChecks path hPath).1 hNot
    · exact absurd (hStaging.inside path hPath) hNot

/- A path that goes up, though not the first one, is refused. -/
theorem writeAll_contained_parent :
    NoLinks bare ∧ ∃ e,
      (ofList [("a", "1"), ("b/../../c", "2")]).writeAll "out" bare =
        .error e bare := by
  refine ⟨noLinks_bare, ?_⟩
  apply (writeAll_contained _ "out" bare noLinks_bare).2
  exact ⟨"b/../../c", by decide, Or.inr (Or.inr (by decide))⟩

end ArtifactSet

end Bindery

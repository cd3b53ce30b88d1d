import Bindery.Artifact.Set
import Bindery.Proofs.Keyed

/-
  This file says which files a set has after others have been
  inserted: every path stays where it came first, and the file
  that came last for it counts.

  Key theorems include:
    * `ArtifactSet.paths_insertAll`
    * `ArtifactSet.get?_insertAll`
    * `ArtifactSet.paths_merge`
    * `ArtifactSet.get?_merge`
    * `ArtifactSet.eq_of_paths_of_get?`
    * `ArtifactSet.files_ofList`
-/

namespace Bindery

------------------------------------------------------------
-- Sets of Files
------------------------------------------------------------

namespace ArtifactSet

variable {a b : ArtifactSet}

/- Sets with the same paths in order and the same contents are equal. -/
theorem eq_of_paths_of_get?
    (hPaths : a.paths = b.paths)
    (hContents : ∀ path, a.get? path = b.get? path) :
    a = b :=
  ext (Keyed.eq_of_keys_of_get? a.distinct hPaths hContents)

theorem insertAll_cons
    (set : ArtifactSet)
    (file : String × String)
    (rest : List (String × String)) :
    set.insertAll (file :: rest) =
      (set.insert file.1 file.2).insertAll rest := rfl

theorem files_insertAll
    (set : ArtifactSet)
    (files : List (String × String)) :
    (set.insertAll files).files = Keyed.putAll files set.files := by
  induction files generalizing set with
  | nil => rfl
  | cons file rest ih => exact ih (set.insert file.1 file.2)

/-
  Paths that were there come first, then new ones in the order
  in which they came first.
-/
theorem paths_insertAll
    (set : ArtifactSet)
    (files : List (String × String)) :
    (set.insertAll files).paths =
      set.paths ++
        ((files.map Prod.fst).filter (· ∉ set.paths)).eraseDups := by
  rw [paths, files_insertAll]
  exact Keyed.keys_putAll files set.files

/- The file that came last for a path counts. -/
theorem get?_insertAll
    (set : ArtifactSet)
    (files : List (String × String))
    (path : String) :
    (set.insertAll files).get? path =
      (Keyed.get? path files.reverse).or (set.get? path) := by
  rw [get?, files_insertAll]
  exact Keyed.get?_putAll path files set.files

/- The paths of the first set come first, then new ones. -/
theorem paths_merge (a b : ArtifactSet) :
    (a.merge b).paths =
      a.paths ++ b.paths.filter (· ∉ a.paths) := by
  have hNodup : (b.paths.filter (· ∉ a.paths)).Nodup :=
    b.distinct.filter _
  rw [merge, paths_insertAll]
  exact congrArg _ (eraseDups_of_nodup hNodup)

/- The second set counts where both have a path. -/
theorem get?_merge
    (a b : ArtifactSet)
    (path : String) :
    (a.merge b).get? path = (b.get? path).or (a.get? path) := by
  rw [merge, get?_insertAll, Keyed.get?_reverse b.distinct]
  rfl

/- Files with distinct paths make up the set of these files. -/
theorem files_ofList
    {files : List (String × String)}
    (h : (files.map Prod.fst).Nodup) :
    (ofList files).files = files := by
  have hPaths : (ofList files).paths = files.map Prod.fst := by
    rw [ofList, paths_insertAll]
    simpa [paths, empty, Keyed.keys] using eraseDups_of_nodup h
  refine Keyed.eq_of_keys_of_get? (ofList files).distinct hPaths ?_
  intro path
  have hGet : (ofList files).get? path = Keyed.get? path files := by
    rw [ofList, get?_insertAll, Keyed.get?_reverse h]
    simp [get?, empty, Keyed.get?]
  exact hGet

end ArtifactSet

end Bindery

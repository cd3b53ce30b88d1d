import Bindery.Proofs.Sorting
import Bindery.Proofs.Template.Execution
import Bindery.Target.Discovery

/-
  This file says which targets are found in a directory, and in
  which order.

  Key theorems include:
    * `discover_ordered`
-/

namespace Bindery

variable {fs : FileSystem} {path : String}
variable {found : List (String × Manifest)}

/-
  The targets that are found in a directory are those of its
  entries with a manifest, in the order of their names.
-/
theorem discover_ordered (h : discover fs path = .ok found) :
    ∃ listed names : List String, fs.listDirectory path = .ok listed ∧
      names.Perm (listed.filter fun name =>
        fs.isFile (manifestPath (Path.join path name))) ∧
      names.Pairwise (· ≤ ·) ∧
      found.map Prod.fst = names.map (Path.join path) := by
  rw [discover, targetDirectories] at h
  cases hList : fs.listDirectory path with
  | error e => simp [hList, Bind.bind, Except.bind] at h
  | ok listed =>
      rw [hList] at h
      let holds (name : String) : Bool :=
        fs.isFile (manifestPath (Path.join path name))
      refine ⟨listed, (ascending listed).filter holds, rfl,
        (ascending_perm listed).filter holds,
        (pairwise_ascending listed).filter holds, ?_⟩
      have hFirst : ∀ directory entry,
          loadManifest fs directory = .ok entry →
          entry.1 = directory := by
        intro directory entry hLoad
        rw [loadManifest] at hLoad
        cases hManifest : Manifest.load fs (manifestPath directory) with
        | error e => simp [hManifest, Bind.bind, Except.bind] at hLoad
        | ok manifest =>
            rw [hManifest] at hLoad
            cases hLoad
            rfl
      have hMade : found.map Prod.fst = List.map id _ :=
        Template.map_of_mapM hFirst h
      rw [hMade, List.map_id, List.filter_map]
      rfl

end Bindery

import Bindery.Proofs.Artifact.Insertion
import Mathlib.Data.List.Perm.Subperm

/-
  This file is about sets of files that are put together: in
  whichever way that is done, it comes to inserting files one
  after the other.

  Key definitions include:
    * `ArtifactSet.Change`
    * `ArtifactSet.changeAll`

  Key theorems include:
    * `ArtifactSet.insertAll_eq_merge`
    * `ArtifactSet.changeAll_eq_insertAll`
    * `ArtifactSet.sameFiles_eq_true_iff`
    * `ArtifactSet.merge_algebra`
-/

namespace Bindery.ArtifactSet

variable {a b : ArtifactSet}

------------------------------------------------------------
-- Changes
------------------------------------------------------------

/- A change to a set of files. -/
inductive Change where
| insert (path content : String)
| merge (other : ArtifactSet)
| extend (files : List (String × String))

/- The files that a change brings. -/
def Change.files : Change → List (String × String)
| .insert path content => [(path, content)]
| .merge other => other.files
| .extend files => files

/- A set after a change. -/
def change (set : ArtifactSet) : Change → ArtifactSet
| .insert path content => set.insert path content
| .merge other => set.merge other
| .extend files => set.insertAll files

/- A set after several changes, one after the other. -/
def changeAll
    (set : ArtifactSet)
    (changes : List Change) : ArtifactSet :=
  changes.foldl change set

theorem insertAll_append
    (set : ArtifactSet)
    (first second : List (String × String)) :
    set.insertAll (first ++ second) =
      (set.insertAll first).insertAll second :=
  List.foldl_append

/- Every change inserts the files that it brings. -/
theorem change_eq_insertAll
    (set : ArtifactSet)
    (c : Change) :
    set.change c = set.insertAll c.files := by
  cases c <;> rfl

/- So several changes insert all these files in order. -/
theorem changeAll_eq_insertAll
    (set : ArtifactSet)
    (changes : List Change) :
    set.changeAll changes =
      set.insertAll (changes.flatMap Change.files) := by
  induction changes generalizing set with
  | nil => rfl
  | cons c rest ih =>
      rw [List.flatMap_cons, insertAll_append, ← change_eq_insertAll,
        ← ih]
      rfl

------------------------------------------------------------
-- Merging
------------------------------------------------------------

/- A set is made of its own files. -/
theorem ofList_files (set : ArtifactSet) : ofList set.files = set :=
  ext (files_ofList set.distinct)

/- Files may be collected first and merged then. -/
theorem insertAll_eq_merge
    (set : ArtifactSet)
    (files : List (String × String)) :
    set.insertAll files = set.merge (ofList files) := by
  refine eq_of_paths_of_get? ?_ fun path => ?_
  · rw [paths_merge, paths_insertAll, ofList, paths_insertAll,
      eraseDups_filter]
    simp [paths, empty, Keyed.keys]
  · rw [get?_merge, get?_insertAll, ofList, get?_insertAll]
    simp [get?, empty, Keyed.get?]

theorem ofList_append (first second : List (String × String)) :
    ofList (first ++ second) = (ofList first).merge (ofList second) := by
  rw [ofList, insertAll_append, insertAll_eq_merge]
  rfl

theorem merge_assoc (a b c : ArtifactSet) :
    (a.merge b).merge c = a.merge (b.merge c) := by
  calc (a.merge b).merge c
      = a.insertAll (b.files ++ c.files) :=
        (insertAll_append a b.files c.files).symm
    _ = a.merge ((ofList b.files).merge (ofList c.files)) := by
        rw [insertAll_eq_merge, ofList_append]
    _ = a.merge (b.merge c) := by
        rw [ofList_files, ofList_files]

theorem empty_merge (set : ArtifactSet) : empty.merge set = set :=
  ofList_files set

theorem merge_empty (set : ArtifactSet) : set.merge empty = set := rfl

theorem merge_self (set : ArtifactSet) : set.merge set = set := by
  refine eq_of_paths_of_get? ?_ fun path => ?_
  · rw [paths_merge]
    simp
  · rw [get?_merge, Option.or_self]

------------------------------------------------------------
-- The Same Files
------------------------------------------------------------

theorem length_paths (set : ArtifactSet) :
    set.paths.length = set.size := by
  simp [paths, Keyed.keys, size]

theorem get?_eq_none_iff {path : String} :
    a.get? path = none ↔ path ∉ a.paths :=
  Keyed.get?_eq_none_iff

/- Sets with the same contents have the same paths in some order. -/
theorem paths_perm
    (h : ∀ path, a.get? path = b.get? path) :
    a.paths.Perm b.paths := by
  refine (List.perm_ext_iff_of_nodup a.distinct b.distinct).mpr ?_
  intro path
  rw [← not_iff_not]
  exact get?_eq_none_iff.symm.trans (h path ▸ get?_eq_none_iff)

/- Sets have the same files if each path leads to the same content. -/
theorem sameFiles_eq_true_iff :
    a.sameFiles b = true ↔ ∀ path, a.get? path = b.get? path := by
  have hUnfold : a.sameFiles b = true ↔ a.size = b.size ∧
      ∀ file ∈ a.files, b.get? file.1 = some file.2 := by
    simp [sameFiles]
  rw [hUnfold]
  constructor
  · rintro ⟨hSize, hFiles⟩ path
    -- all paths of `a` are paths of `b`, which has no more of them
    have hSubset : a.paths ⊆ b.paths := by
      intro other hOther
      rcases List.mem_map.mp hOther with ⟨file, hFile, rfl⟩
      exact Keyed.mem_keys_of_get? (hFiles file hFile)
    have hNodup : a.paths.Nodup := a.distinct
    have hPerm : a.paths.Perm b.paths := by
      refine (List.subperm_of_subset hNodup hSubset).perm_of_length_le ?_
      rw [length_paths, length_paths]
      exact Nat.le_of_eq hSize.symm
    cases hGet : a.get? path with
    | some content =>
        exact (hFiles _ (Keyed.mem_of_get? hGet)).symm
    | none =>
        rw [get?_eq_none_iff, hPerm.mem_iff] at hGet
        exact (get?_eq_none_iff.mpr hGet).symm
  · intro h
    refine ⟨?_, fun file hFile => ?_⟩
    · rw [← length_paths, ← length_paths, (paths_perm h).length_eq]
    · rw [← h file.1]
      exact (Keyed.get?_eq_some_iff a.distinct).mpr hFile

/- The order of merging matters only to paths that both sets have. -/
theorem sameFiles_merge_comm_iff :
    (a.merge b).sameFiles (b.merge a) = true ↔
      ∀ path ∈ a.paths, path ∈ b.paths → a.get? path = b.get? path := by
  rw [sameFiles_eq_true_iff]
  refine forall_congr' fun path => ?_
  rw [get?_merge, get?_merge]
  by_cases hFirst : path ∈ a.paths
  · by_cases hSecond : path ∈ b.paths
    · obtain ⟨content, hContent⟩ := Option.ne_none_iff_exists'.mp
        (mt get?_eq_none_iff.mp (not_not.mpr hFirst))
      obtain ⟨other, hOther⟩ := Option.ne_none_iff_exists'.mp
        (mt get?_eq_none_iff.mp (not_not.mpr hSecond))
      simp [hContent, hOther, hFirst, hSecond, eq_comm]
    · simp [get?_eq_none_iff.mpr hSecond, hSecond]
  · simp [get?_eq_none_iff.mpr hFirst, hFirst]

------------------------------------------------------------
-- The Algebra of Sets
------------------------------------------------------------

/-
  However a set is changed, it has each path once: those that
  were there, then new ones where they came first.  Merging is
  associative, does nothing with the empty set or with the set
  itself, and is what collecting further files comes to.  The
  paths of the first set come first, the contents of the second
  one count, and which set is which matters to nothing but the
  order exactly if the sets agree on the paths that both have.
-/
theorem merge_algebra
    (a b c : ArtifactSet)
    (changes : List Change)
    (first second : List (String × String)) :
    (a.changeAll changes).paths.Nodup ∧
      (a.changeAll changes).paths =
        a.paths ++ (((changes.flatMap Change.files).map Prod.fst).filter
          (· ∉ a.paths)).eraseDups ∧
      ofList (first ++ second) = (ofList first).merge (ofList second) ∧
      (a.merge b).merge c = a.merge (b.merge c) ∧
      empty.merge a = a ∧
      a.merge empty = a ∧
      a.merge a = a ∧
      (a.merge b).paths = a.paths ++ b.paths.filter (· ∉ a.paths) ∧
      (∀ path, (a.merge b).get? path =
        (b.get? path).or (a.get? path)) ∧
      ((∀ path ∈ a.paths, path ∉ b.paths) →
        (a.merge b).sameFiles (b.merge a) = true) ∧
      ((a.merge b).sameFiles (b.merge a) = true ↔
        ∀ path ∈ a.paths, path ∈ b.paths →
          a.get? path = b.get? path) := by
  refine ⟨(a.changeAll changes).distinct, ?_,
    ofList_append first second, merge_assoc a b c, empty_merge a,
    merge_empty a, merge_self a, paths_merge a b, get?_merge a b, ?_,
    sameFiles_merge_comm_iff⟩
  · rw [changeAll_eq_insertAll, paths_insertAll]
  · intro hApart
    exact sameFiles_merge_comm_iff.mpr fun path hFirst hSecond =>
      absurd hSecond (hApart path hFirst)

/- Two sets without a common path: only the order is different. -/
theorem merge_algebra_apart :
    (∀ path ∈ (ofList [("x", "1"), ("y", "2")]).paths,
        path ∉ (ofList [("z", "3")]).paths) ∧
      ((ofList [("x", "1"), ("y", "2")]).merge
          (ofList [("z", "3")])).sameFiles
        ((ofList [("z", "3")]).merge
          (ofList [("x", "1"), ("y", "2")])) = true ∧
      ((ofList [("x", "1"), ("y", "2")]).merge
        (ofList [("z", "3")])).paths = ["x", "y", "z"] ∧
      ((ofList [("z", "3")]).merge
        (ofList [("x", "1"), ("y", "2")])).paths = ["z", "x", "y"] := by
  have hApart : ∀ path ∈ (ofList [("x", "1"), ("y", "2")]).paths,
      path ∉ (ofList [("z", "3")]).paths := by
    decide
  rcases merge_algebra (ofList [("x", "1"), ("y", "2")])
    (ofList [("z", "3")]) empty [] [] [] with
    ⟨-, -, -, -, -, -, -, -, -, hSame, -⟩
  exact ⟨hApart, hSame hApart, by decide, by decide⟩

/- The first place and the last content of a path count. -/
example :
    (empty.changeAll
      [.insert "a" "1", .extend [("b", "2"), ("a", "3")],
        .merge (ofList [("c", "4"), ("b", "5")])]).files =
      [("a", "3"), ("b", "5"), ("c", "4")] := by
  decide

end Bindery.ArtifactSet

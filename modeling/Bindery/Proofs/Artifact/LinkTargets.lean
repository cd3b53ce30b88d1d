import Bindery.Proofs.Artifact.Preservation
import Bindery.Proofs.Artifact.Staged
import Bindery.Proofs.Artifact.StagingName

/-
  This file says that writing a set of files makes no links: what
  links point to in the end they pointed to before, also where a
  name comes twice in a directory.

  Key definitions include:
    * `Node.allTargets`

  Key theorems include:
    * `Node.Descends.allTargets_subset`
    * `Node.allTargets_put_subset`
    * `Node.allTargets_remove_subset`
    * `isKept_allTargets`
    * `HasStaging.linkNames_subset`
-/

namespace Bindery

open FileSystem

------------------------------------------------------------
-- Targets at and Below a Node
------------------------------------------------------------

namespace Node

/- The targets of the links at and below a node. -/
def allTargets (node : Node) : List String :=
  node.target?.toList ++ node.linkTargets

@[simp] theorem allTargets_file (content : ByteArray) :
    (Node.file content).allTargets = [] := rfl

theorem allTargets_directory (entries : List (String × Node)) :
    (Node.directory entries).allTargets = entryTargets entries := by
  rw [allTargets, linkTargets_directory]
  rfl

theorem linkTargets_subset_allTargets (node : Node) :
    node.linkTargets ⊆ node.allTargets :=
  List.subset_append_right _ _

/- The targets below a directory are those of its entries. -/
theorem mem_entryTargets_iff
    {target : String}
    {entries : List (String × Node)} :
    target ∈ entryTargets entries ↔
      ∃ entry ∈ entries, target ∈ entry.2.allTargets := by
  induction entries with
  | nil => simp [entryTargets, entryDescendants]
  | cons entry rest ih =>
      rcases entry with ⟨name, node⟩
      rw [entryTargets_cons, ← List.append_assoc, List.mem_append, ih]
      simp [allTargets]

theorem allTargets_of_get?
    {name : String}
    {child : Node}
    {entries : List (String × Node)}
    (h : Keyed.get? name entries = some child) :
    child.allTargets ⊆ entryTargets entries := by
  intro target hTarget
  exact mem_entryTargets_iff.mpr
    ⟨(name, child), Keyed.mem_of_get? h, hTarget⟩

/- A node that is there has no other targets than those around it. -/
theorem allTargets_of_at?
    {node below : Node}
    {loc : Location}
    (h : node.at? loc = some below) :
    below.allTargets ⊆ node.allTargets := by
  induction loc generalizing node with
  | nil =>
      obtain rfl : node = below := by simpa [at?] using h
      exact List.Subset.refl _
  | cons name rest ih =>
      cases node with
      | file content => simp [at?] at h
      | link target => simp [at?] at h
      | directory entries =>
          cases hGet : Keyed.get? name entries with
          | none => simp [at?, hGet] at h
          | some child =>
              rw [allTargets_directory]
              exact List.Subset.trans (ih (by simpa [at?, hGet] using h))
                (allTargets_of_get? hGet)

/- Putting an entry brings in its targets at most. -/
theorem entryTargets_put_subset
    {target name : String}
    {new : Node}
    {entries : List (String × Node)}
    (h : target ∈ entryTargets (Keyed.put name new entries)) :
    target ∈ entryTargets entries ∨ target ∈ new.allTargets := by
  rcases mem_entryTargets_iff.mp h with ⟨entry, hEntry, hTarget⟩
  rcases Keyed.mem_put hEntry with rfl | hOld
  · exact Or.inr hTarget
  · exact Or.inl (mem_entryTargets_iff.mpr ⟨entry, hOld, hTarget⟩)

/- A change brings in what it brings into the last directory. -/
theorem Descends.allTargets_subset
    {change : Node → Location → Node}
    (h : Descends change)
    {added : List String}
    (hLast : ∀ entries name,
      (change (.directory entries) [name]).allTargets ⊆
        entryTargets entries ++ added)
    (node : Node)
    {loc : Location}
    (hLoc : loc ≠ []) :
    (change node loc).allTargets ⊆ node.allTargets ++ added := by
  refine h.induct (motive := fun node _ after =>
    after.allTargets ⊆ node.allTargets ++ added)
    ?same ?last ?above node hLoc
  case same =>
    intro node loc _ _
    exact List.subset_append_left _ _
  case last =>
    intro entries name
    rw [allTargets_directory]
    exact hLast entries name
  case above =>
    intro entries name next rest child after hGet ih target hTarget
    rw [allTargets_directory] at hTarget ⊢
    rcases entryTargets_put_subset hTarget with hOld | hNew
    · exact List.mem_append_left _ hOld
    · rcases List.mem_append.mp (ih hNew) with hChild | hAdded
      · exact List.mem_append_left _ (allTargets_of_get? hGet hChild)
      · exact List.mem_append_right _ hAdded

/- Putting a node brings in its targets at most. -/
theorem allTargets_put_subset
    (new node : Node)
    (loc : Location) :
    (put new node loc).allTargets ⊆ node.allTargets ++ new.allTargets := by
  by_cases hLoc : loc = []
  · subst hLoc
    rw [put]
    exact List.subset_append_right _ _
  · apply (descends_put new).allTargets_subset _ node hLoc
    intro entries name target hTarget
    rw [put, allTargets_directory] at hTarget
    exact List.mem_append.mpr (entryTargets_put_subset hTarget)

/- Removing a node brings in no targets. -/
theorem allTargets_remove_subset
    (node : Node)
    (loc : Location) :
    (node.remove loc).allTargets ⊆ node.allTargets := by
  by_cases hLoc : loc = []
  · subst hLoc
    cases node <;> exact List.Subset.refl _
  · rw [← List.append_nil node.allTargets]
    apply descends_remove.allTargets_subset _ node hLoc
    intro entries name target hTarget
    rw [remove, allTargets_directory, mem_entryTargets_iff] at hTarget
    rcases hTarget with ⟨entry, hEntry, hMem⟩
    rw [List.append_nil, mem_entryTargets_iff]
    exact ⟨entry, (Keyed.erase_sublist _ _).subset hEntry, hMem⟩

end Node

/- Where no link has a target, there is no link. -/
theorem noLinks_of_allTargets
    {fs : FileSystem}
    (h : fs.root.allTargets = []) :
    NoLinks fs := by
  intro loc target hLink
  rcases Option.map_eq_some_iff.mp hLink with ⟨below, hAt, hEntry⟩
  have hBelow : below = .link target := by
    cases below <;> simp_all [Node.entry]
  have hTarget : target ∈ below.allTargets := by
    simp [hBelow, Node.allTargets, Node.target?]
  simpa [h] using Node.allTargets_of_at? hAt hTarget

theorem noLinks_furnished : NoLinks furnished :=
  noLinks_of_allTargets (by decide)

------------------------------------------------------------
-- Operations Make No Links
------------------------------------------------------------

/- A file that is written is put somewhere. -/
theorem FileSystem.exists_put_of_writeFile
    {fs fs' : FileSystem}
    {path : String}
    {content : ByteArray}
    (h : fs.writeFile path content = .ok fs') :
    ∃ loc, fs' = fs.put loc (.file content) := by
  unfold writeFile at h
  split at h
  · rcases bind_eq_ok_iff.mp h with ⟨-, -, hError⟩
    simp at hError
  · rcases bind_eq_ok_iff.mp h with ⟨found, -, hPut⟩
    cases found with
    | missing dir name =>
        exact ⟨dir ++ [name], by simpa using hPut.symm⟩
    | present loc =>
        by_cases hDirectory : fs.isDirectoryAt loc = true
        · simp [hDirectory] at hPut
        · exact ⟨loc, by simpa [hDirectory] using hPut.symm⟩

/- The operations on files make no links. -/
theorem isKept_allTargets (targets : List String) :
    IsKept fun fs => fs.root.allTargets ⊆ targets where
  makeDirectory path h hMade := by
    rcases makeDirectory_eq_ok_iff.mp hMade with
      ⟨-, dir, name, -, -, rfl⟩
    intro target hTarget
    rcases List.mem_append.mp
        (Node.allTargets_put_subset _ _ _ hTarget) with
      hOld | hNew
    · exact h hOld
    · simp [Node.allTargets_directory, Node.entryTargets,
        Node.entryDescendants] at hNew
  writeFile path content h hWrite := by
    rcases exists_put_of_writeFile hWrite with ⟨loc, rfl⟩
    intro target hTarget
    rcases List.mem_append.mp
        (Node.allTargets_put_subset _ _ _ hTarget) with
      hOld | hNew
    · exact h hOld
    · simp at hNew
  rename old new h hRename := by
    rcases rename_eq_ok hRename with
      ⟨oldDir, oldName, newDir, newName, -, -, -,
        ⟨-, rfl⟩ | ⟨node, hMoved, rfl⟩⟩
    · exact h
    · intro target hTarget
      rcases List.mem_append.mp
        (Node.allTargets_put_subset _ _ _ hTarget) with
      hOld | hNew
      · exact h (Node.allTargets_remove_subset _ _ hOld)
      · exact h (Node.allTargets_of_at? hMoved.found hNew)
  remove loc h :=
    List.Subset.trans (Node.allTargets_remove_subset _ loc) h

/- In a directory the names that links mention are those below. -/
theorem FileSystem.linkNames_eq_of_directory
    {fs : FileSystem}
    (h : fs.entryAt? [] = some .directory) :
    fs.linkNames = fs.root.allTargets.flatMap Path.names := by
  rw [linkNames_eq_flatMap]
  rcases entryAt?_eq_directory_iff.mp h with ⟨entries, hRoot⟩
  have hEq : fs.root = .directory entries := by
    simpa [at?, Node.at?] using hRoot
  rw [hEq, Node.allTargets_directory, Node.linkTargets_directory]

/- No name is mentioned by links that was not when staging began. -/
theorem HasStaging.linkNames_subset
    {set : ArtifactSet}
    {root name : String}
    {fs grown published : FileSystem}
    {base : Location}
    (h : HasStaging set root fs grown base name)
    (hPublish :
      set.publish root (Path.join (stagingParent root) name)
        (grown.withStaging base name) = .ok () published) :
    (removeAt (Path.join (stagingParent root) name)
      published).linkNames ⊆ grown.linkNames := by
  have hKept := isKept_allTargets
    (grown.withStaging base name).root.allTargets
  have hPublished := hKept.publish set root
    (Path.join (stagingParent root) name) _ (List.Subset.refl _)
  rw [Writing.final_of_ok hPublish] at hPublished
  have hCleared := hKept.removeAt (Path.join (stagingParent root) name)
    hPublished
  rw [← linkNames_put_directory h.isStaging.none, ← withStaging,
    linkNames_eq_of_directory (directory_root h.leadsTo.directory),
    linkNames_eq_flatMap]
  intro other hOther
  rcases List.mem_flatMap.mp hOther with ⟨target, hTarget, hName⟩
  exact List.mem_flatMap.mpr ⟨target,
    hCleared (Node.linkTargets_subset_allTargets _ hTarget), hName⟩

end Bindery

import Bindery.Proofs.Files.Operations
import Bindery.Proofs.Keyed

/-
  This file says when the directories of a file system are
  proper, with distinct names that paths can enter, and that
  the operations on files keep them so.

  Key definitions include:
    * `Node.IsProper`
    * `FileSystem.IsProper`

  Key theorems include:
    * `Node.induct`
    * `Node.isProper_directory_iff`
    * `Node.checkNames_eq_true_iff`
    * `Node.IsProper.put`
    * `Node.IsProper.remove`
    * `FileSystem.IsProper.makeDirectory`
    * `FileSystem.IsProper.writeFile`
    * `FileSystem.IsProper.rename`
-/

namespace Bindery

namespace Node

------------------------------------------------------------
-- Induction over Nodes
------------------------------------------------------------

mutual

theorem induct
    {motive : Node → Prop}
    (file : ∀ content, motive (.file content))
    (link : ∀ target, motive (.link target))
    (directory : ∀ entries : List (String × Node),
      (∀ entry ∈ entries, motive entry.2) →
        motive (.directory entries)) :
    (node : Node) → motive node
| .file content => file content
| .link target => link target
| .directory entries =>
    directory entries (inductEntries file link directory entries)

theorem inductEntries
    {motive : Node → Prop}
    (file : ∀ content, motive (.file content))
    (link : ∀ target, motive (.link target))
    (directory : ∀ entries : List (String × Node),
      (∀ entry ∈ entries, motive entry.2) →
        motive (.directory entries)) :
    (entries : List (String × Node)) →
      ∀ entry ∈ entries, motive entry.2
| [] => by simp
| (name, node) :: rest => by
    rw [List.forall_mem_cons]
    exact ⟨induct file link directory node,
      inductEntries file link directory rest⟩

end

------------------------------------------------------------
-- Proper Nodes
------------------------------------------------------------

/- The entries of a directory have distinct names. -/
def HasNames (entries : List (String × Node)) : Prop :=
  (Keyed.keys entries).Nodup ∧
    ∀ name ∈ Keyed.keys entries, Path.IsName name

instance (entries : List (String × Node)) :
    Decidable (HasNames entries) :=
  inferInstanceAs (Decidable (_ ∧ _))

/- The directories at and below a node have distinct names. -/
def IsProper (node : Node) : Prop :=
  ∀ loc entries, node.at? loc = some (.directory entries) →
    HasNames entries

/- What is in a proper directory is proper. -/
theorem isProper_directory_iff {entries : List (String × Node)} :
    (Node.directory entries).IsProper ↔
      HasNames entries ∧
        ∀ name child, Keyed.get? name entries = some child →
          child.IsProper := by
  constructor
  · intro h
    refine ⟨h [] entries rfl, fun name child hChild loc others hAt => ?_⟩
    apply h (name :: loc) others
    simpa [at?, hChild] using hAt
  · rintro ⟨hNames, hChildren⟩ loc others hAt
    cases loc with
    | nil =>
        obtain rfl : entries = others := by simpa [at?] using hAt
        exact hNames
    | cons name rest =>
        cases hChild : Keyed.get? name entries with
        | none => simp [at?, hChild] at hAt
        | some child =>
            exact hChildren name child hChild rest others
              (by simpa [at?, hChild] using hAt)

theorem isProper_of_ne_directory
    {node : Node}
    (h : node.entry ≠ .directory) :
    node.IsProper := by
  intro loc entries hAt
  cases loc with
  | nil =>
      obtain rfl : node = .directory entries := by simpa [at?] using hAt
      exact absurd rfl h
  | cons name rest =>
      cases node with
      | file content => simp [at?] at hAt
      | link target => simp [at?] at hAt
      | directory others => exact absurd rfl h

mutual

/- Whether the directories at and below a node have distinct names. -/
def checkNames : Node → Bool
| .directory entries =>
    decide (HasNames entries) && checkEntryNames entries
| _ => true

def checkEntryNames : List (String × Node) → Bool
| [] => true
| (_, node) :: rest => node.checkNames && checkEntryNames rest

end

theorem checkEntryNames_eq_true_iff {entries : List (String × Node)} :
    checkEntryNames entries = true ↔
      ∀ entry ∈ entries, entry.2.checkNames = true := by
  induction entries with
  | nil => simp [checkEntryNames]
  | cons entry rest ih => simp [checkEntryNames, ih]

theorem checkNames_eq_true_iff {node : Node} :
    node.checkNames = true ↔ node.IsProper := by
  induction node using Node.induct with
  | file content =>
      exact iff_of_true rfl (isProper_of_ne_directory (by simp [entry]))
  | link target =>
      exact iff_of_true rfl (isProper_of_ne_directory (by simp [entry]))
  | directory entries ih =>
      rw [checkNames, Bool.and_eq_true, decide_eq_true_iff,
        checkEntryNames_eq_true_iff, isProper_directory_iff]
      refine and_congr_right fun hNames => ?_
      constructor
      · intro hAll name child hChild
        have hMem := (Keyed.get?_eq_some_iff hNames.1).mp hChild
        exact (ih _ hMem).mp (hAll _ hMem)
      · intro hAll entry hMem
        exact (ih _ hMem).mpr (hAll entry.1 entry.2
          ((Keyed.get?_eq_some_iff hNames.1).mpr hMem))

instance (node : Node) : Decidable node.IsProper :=
  decidable_of_iff _ checkNames_eq_true_iff

theorem isProper_empty : (Node.directory []).IsProper :=
  isProper_directory_iff.mpr
    ⟨⟨List.nodup_nil, by simp [Keyed.keys]⟩, by simp [Keyed.get?]⟩

namespace IsProper

variable {node new : Node} {loc : Location}

theorem at?
    {below : Node}
    (h : node.IsProper)
    (hAt : node.at? loc = some below) :
    below.IsProper := by
  intro rest entries hRest
  apply h (loc ++ rest) entries
  rw [at?_append, hAt]
  exact hRest

/- The names on the way to what is there are proper. -/
theorem isName_of_mem
    (h : node.IsProper)
    (hAt : node.at? loc ≠ none) :
    ∀ name ∈ loc, Path.IsName name := by
  induction loc generalizing node with
  | nil => simp
  | cons first rest ih =>
      cases node with
      | file content => simp [Node.at?] at hAt
      | link target => simp [Node.at?] at hAt
      | directory entries =>
          rcases isProper_directory_iff.mp h with
            ⟨⟨-, hNames⟩, hChildren⟩
          cases hGet : Keyed.get? first entries with
          | none => simp [Node.at?, hGet] at hAt
          | some child =>
              rw [List.forall_mem_cons]
              exact ⟨hNames first (Keyed.mem_keys_of_get? hGet),
                ih (hChildren first child hGet)
                  (by simpa [Node.at?, hGet] using hAt)⟩

/- An entry that is put under a proper name. -/
theorem put_entry
    {name : String}
    {entries : List (String × Node)}
    (h : (Node.directory entries).IsProper)
    (hNew : new.IsProper)
    (hName : Keyed.get? name entries = none → Path.IsName name) :
    (Node.directory (Keyed.put name new entries)).IsProper := by
  rcases isProper_directory_iff.mp h with
    ⟨⟨hNodup, hNames⟩, hChildren⟩
  refine isProper_directory_iff.mpr
    ⟨⟨Keyed.nodup_keys_put _ _ _ hNodup, ?_⟩, fun other child => ?_⟩
  · intro other hOther
    rw [Keyed.keys_put] at hOther
    split at hOther
    · exact hNames other hOther
    · rename_i hFresh
      rcases List.mem_append.mp hOther with hOld | hNewName
      · exact hNames other hOld
      · obtain rfl : other = name := by simpa using hNewName
        exact hName (Keyed.get?_eq_none_iff.mpr hFresh)
  · rw [Keyed.get?_put]
    split
    · intro hEq
      obtain rfl : new = child := by simpa using hEq
      exact hNew
    · exact hChildren other child

/- A node that is put where one was or under a proper name. -/
theorem put
    (h : node.IsProper)
    (hNew : new.IsProper)
    (hName : node.at? loc = none → ∀ name, loc.getLast? = some name →
      Path.IsName name) :
    (Node.put new node loc).IsProper := by
  by_cases hLoc : loc = []
  · subst hLoc
    simpa [Node.put] using hNew
  refine (descends_put new).induct (motive := fun node loc after =>
    node.IsProper → (node.at? loc = none → ∀ name,
      loc.getLast? = some name → Path.IsName name) → after.IsProper)
    ?same ?last ?above node hLoc h hName
  case same =>
    intro node loc _ _ hNode _
    exact hNode
  case last =>
    intro entries name hNode hIsName
    rw [Node.put]
    apply hNode.put_entry hNew
    intro hNone
    exact hIsName (by simp [Node.at?, hNone]) name rfl
  case above =>
    intro entries name next rest child after hGet ih hNode hIsName
    have hChild := (isProper_directory_iff.mp hNode).2 name child hGet
    refine hNode.put_entry (ih hChild fun hNone last hLast => ?_)
      (by simp [hGet])
    apply hIsName
    · simpa [Node.at?, hGet] using hNone
    · simpa using hLast

theorem remove (h : node.IsProper) :
    (node.remove loc).IsProper := by
  by_cases hLoc : loc = []
  · subst hLoc
    cases node <;> exact h
  refine descends_remove.induct (motive := fun node _ after =>
    node.IsProper → after.IsProper) ?same ?last ?above node hLoc h
  case same =>
    intro node loc _ _ hNode
    exact hNode
  case last =>
    intro entries name hNode
    rcases isProper_directory_iff.mp hNode with
      ⟨⟨hNodup, hNames⟩, hChildren⟩
    have hSub := Keyed.keys_erase_sublist name entries
    rw [Node.remove, isProper_directory_iff]
    refine ⟨⟨hNodup.sublist hSub,
      fun other hOther => hNames other (hSub.subset hOther)⟩,
      fun other child => ?_⟩
    rw [Keyed.get?_erase]
    split
    · simp
    · exact hChildren other child
  case above =>
    intro entries name next rest child after hGet ih hNode
    have hChild := (isProper_directory_iff.mp hNode).2 name child hGet
    exact hNode.put_entry (ih hChild) (by simp [hGet])

end IsProper

end Node

namespace FileSystem

open Bindery.Path (Step)

variable {fs fs' : FileSystem} {path : String}

------------------------------------------------------------
-- Places to Put Something
------------------------------------------------------------

/- Something is where a way ends, or a proper name is missing there. -/
def IsPlace (fs : FileSystem) : Found → Prop
| .present loc => fs.entryAt? loc ≠ none
| .missing _ name => Path.IsName name

/- The root and the working directory are there with a directory. -/
theorem entryAt?_startOf_ne_none
    {here : Location}
    (target : String)
    (h : fs.entryAt? here ≠ none) :
    fs.entryAt? (startOf here target) ≠ none := by
  unfold startOf
  split
  · exact mt (entryAt?_of_isPrefix_of_none List.nil_prefix) h
  · exact h

theorem isName_of_enter_mem_fullSteps
    {name : String}
    (h : .enter name ∈ fullSteps path) :
    Path.IsName name := by
  unfold fullSteps at h
  rcases List.mem_append.mp h with hSteps | hStay
  · exact Path.isName_of_enter_mem hSteps
  · split at hStay <;> simp at hStay

/- A walk through proper names ends at a place. -/
theorem Walks.isPlace
    {links : Nat}
    {here : Location}
    {way : List Step}
    {found : Found}
    (h : fs.Walks links here way found)
    (hStart : way ≠ [] ∨ fs.entryAt? here ≠ none)
    (hNames : ∀ name, .enter name ∈ way → Path.IsName name) :
    fs.IsPlace found := by
  induction h with
  | here => exact hStart.resolve_left (by simp)
  | stay hHere _ ih =>
      exact ih (Or.inr (by simp [hHere]))
        fun name hName => hNames name (List.mem_cons_of_mem _ hName)
  | @up _ here _ _ hHere _ ih =>
      have hThere : fs.entryAt? here ≠ none := by simp [hHere]
      exact ih (Or.inr (mt (entryAt?_of_isPrefix_of_none
          (List.dropLast_prefix here)) hThere))
        fun name hName => hNames name (List.mem_cons_of_mem _ hName)
  | missing _ _ _ => exact hNames _ (by simp)
  | enter _ _ hChild _ _ ih =>
      exact ih (Or.inr (by simp [hChild]))
        fun name hName => hNames name (List.mem_cons_of_mem _ hName)
  | @link _ _ _ target _ _ hHere _ _ _ ih =>
      refine ih (Or.inr (entryAt?_startOf_ne_none target
        (by simp [hHere]))) fun name hName => ?_
      rcases List.mem_append.mp hName with hTarget | hOwn
      · exact isName_of_enter_mem_fullSteps hTarget
      · exact hNames name (List.mem_cons_of_mem _ hOwn)

/- A path that does not end in a slash ends at a place. -/
theorem isPlace_of_resolve
    {found : Found}
    (hSlash : Path.endsInSlash path = false)
    (h : fs.resolve path = .ok found) :
    fs.IsPlace found := by
  rcases resolve_eq_ok_iff.mp h with ⟨hCheck, hWalk⟩
  refine (walks_of_walk hWalk).isPlace (Or.inl ?_)
    fun name hName => isName_of_enter_mem_fullSteps hName
  have hSteps := Path.steps_ne_nil_of_endsInSlash
    (ne_empty_of_checkPath hCheck) hSlash
  simp [fullSteps, hSteps]

theorem LiesIn.isName
    {dir : Location}
    {name : String}
    (h : fs.LiesIn path dir name) :
    Path.IsName name := by
  rcases h.way with ⟨init, hSteps, -⟩
  apply @Path.isName_of_enter_mem path
  simp [hSteps]

------------------------------------------------------------
-- Proper File Systems
------------------------------------------------------------

/- All directories have distinct names that paths can enter. -/
def IsProper (fs : FileSystem) : Prop :=
  fs.root.IsProper

instance (fs : FileSystem) : Decidable fs.IsProper :=
  inferInstanceAs (Decidable fs.root.IsProper)

namespace IsProper

/- A node that is put where one was or under a proper name. -/
theorem put
    {loc : Location}
    {node : Node}
    (h : fs.IsProper)
    (hNode : node.IsProper)
    (hName : fs.entryAt? loc = none → ∀ name,
      loc.getLast? = some name → Path.IsName name) :
    (fs.put loc node).IsProper :=
  Node.IsProper.put h hNode fun hNone =>
    hName (entryAt?_eq_none_iff.mpr hNone)

theorem put_name
    {dir : Location}
    {name : String}
    {node : Node}
    (h : fs.IsProper)
    (hNode : node.IsProper)
    (hName : Path.IsName name) :
    (fs.put (dir ++ [name]) node).IsProper := by
  refine h.put hNode fun _ other hOther => ?_
  obtain rfl : name = other := by simpa using hOther
  exact hName

theorem remove
    (h : fs.IsProper)
    (loc : Location) :
    (fs.remove loc).IsProper :=
  Node.IsProper.remove h

theorem makeDirectory
    (h : fs.IsProper)
    (hMade : fs.makeDirectory path = .ok fs') :
    fs'.IsProper := by
  rcases makeDirectory_eq_ok_iff.mp hMade with
    ⟨-, dir, name, hLies, -, rfl⟩
  exact h.put_name Node.isProper_empty hLies.isName

theorem writeFile
    {content : ByteArray}
    (h : fs.IsProper)
    (hWrite : fs.writeFile path content = .ok fs') :
    fs'.IsProper := by
  have hFile : (Node.file content).IsProper :=
    Node.isProper_of_ne_directory (by simp [Node.entry])
  unfold FileSystem.writeFile at hWrite
  split at hWrite
  · rcases bind_eq_ok_iff.mp hWrite with ⟨-, -, hError⟩
    simp at hError
  · rename_i hSlash
    rcases bind_eq_ok_iff.mp hWrite with ⟨found, hResolve, hPut⟩
    have hPlace := isPlace_of_resolve (by simpa using hSlash) hResolve
    cases found with
    | missing dir name =>
        obtain rfl : fs.put (dir ++ [name]) (.file content) = fs' := by
          simpa using hPut
        exact h.put_name hFile hPlace
    | present loc =>
        by_cases hDirectory : fs.isDirectoryAt loc = true
        · simp [hDirectory] at hPut
        · obtain rfl : fs.put loc (.file content) = fs' := by
            simpa [hDirectory] using hPut
          exact h.put hFile fun hNone => absurd hNone hPlace

theorem rename
    {new : String}
    (h : fs.IsProper)
    (hRename : fs.rename path new = .ok fs') :
    fs'.IsProper := by
  rcases rename_eq_ok hRename with
    ⟨oldDir, oldName, newDir, newName, -, hNew, -,
      ⟨-, rfl⟩ | ⟨node, hMoved, rfl⟩⟩
  · exact h
  · exact (h.remove _).put_name (h.at? hMoved.found) hNew.isName

end IsProper

end FileSystem

end Bindery

import Bindery.Proofs.Files.Destination
import Bindery.Proofs.Files.Proper

/-
  This file is about file systems with the same entries in the
  same places, whose directories may be listed in different
  orders.  Paths lead to the same places in them, and the same
  is read there; only the listings are put in another order.

  Key definitions include:
    * `FileSystem.SameEntries`

  Key theorems include:
    * `FileSystem.SameEntries.of_perm`
    * `FileSystem.SameEntries.resolve`
    * `FileSystem.SameEntries.stat_cases`
    * `FileSystem.SameEntries.readText`
    * `FileSystem.SameEntries.listDirectory`
-/

namespace Bindery.FileSystem

open Bindery.Path (Step)

variable {fs other : FileSystem}

/-
  Two file systems have the same entries in the same places.
  How the entries of a directory are listed does not count.
-/
structure SameEntries (fs other : FileSystem) : Prop where
  home : other.home = fs.home
  entries : ∀ loc, other.entryAt? loc = fs.entryAt? loc

------------------------------------------------------------
-- Listing in Another Order
------------------------------------------------------------

/- Below a directory there is the same, however it is listed. -/
theorem entryAt?_directory_perm
    {entries others : List (String × Node)}
    (hPerm : others.Perm entries)
    (hNames : Node.HasNames entries)
    (loc : Location) :
    (Node.directory others).entryAt? loc =
      (Node.directory entries).entryAt? loc := by
  cases loc with
  | nil => simp [Node.entry]
  | cons name rest =>
      simp only [Node.entryAt?_directory_cons,
        Keyed.get?_perm hPerm hNames.1]

/- A directory can be listed in any order. -/
theorem SameEntries.of_perm
    {dir : Location}
    {entries others : List (String × Node)}
    (hProper : fs.IsProper)
    (hDir : fs.at? dir = some (.directory entries))
    (hPerm : others.Perm entries) :
    SameEntries fs (fs.put dir (.directory others)) ∧
      (fs.put dir (.directory others)).IsProper := by
  have hNode := Node.IsProper.at? hProper hDir
  rcases Node.isProper_directory_iff.mp hNode with ⟨hNames, hChildren⟩
  have hOthers : (Node.directory others).IsProper := by
    refine Node.isProper_directory_iff.mpr ⟨⟨?_, ?_⟩, ?_⟩
    · exact (hPerm.map Prod.fst).nodup_iff.mpr hNames.1
    · intro name hName
      exact hNames.2 name ((hPerm.map Prod.fst).subset hName)
    · intro name child hChild
      rw [Keyed.get?_perm hPerm hNames.1] at hChild
      exact hChildren name child hChild
  have hEntry : fs.entryAt? dir = some .directory :=
    entryAt?_eq_directory_iff.mpr ⟨entries, hDir⟩
  refine ⟨⟨rfl, fun loc => ?_⟩,
    hProper.put hOthers (by simp [hEntry])⟩
  have hBelow := entryAt?_directory_perm hPerm hNames
  rcases List.eq_nil_or_concat' dir with rfl | ⟨init, name, rfl⟩
  · have hRoot : fs.root = .directory entries := by
      simpa [FileSystem.at?, Node.at?] using hDir
    rw [entryAt?, entryAt?, hRoot]
    simpa [FileSystem.put, Node.put] using hBelow loc
  · have hInit : fs.entryAt? init = some .directory :=
      directory_of_append [name] (by simp) (by simp [hEntry])
    rw [entryAt?_put hInit]
    split
    · rename_i hPrefix
      rcases hPrefix with ⟨below, rfl⟩
      have hDrop : (init ++ [name] ++ below).drop (init.length + 1) =
          below :=
        List.drop_left' (by simp)
      rw [hDrop, entryAt?_of_at? hDir]
      exact hBelow below
    · rfl

------------------------------------------------------------
-- Where Paths Lead
------------------------------------------------------------

namespace SameEntries

/-
  Ways end in the same places, given that they do so after a
  link.
-/
theorem walk_of_follow
    (h : SameEntries fs other)
    {links : Nat}
    (hFollow : ∀ here target rest,
      other.follow here target rest links =
        fs.follow here target rest links)
    (here : Location)
    (way : List Step) :
    other.walk true links here way = fs.walk true links here way := by
  induction way generalizing here with
  | nil => rw [walk_nil, walk_nil]
  | cons step rest ih =>
      cases step with
      | stay => rw [walk_stay, walk_stay, h.entries, ih]
      | up => rw [walk_up, walk_up, h.entries, ih]
      | enter name =>
          rw [walk_enter, walk_enter, h.entries, h.entries, ih]
          simp only [hFollow]

theorem walk
    (h : SameEntries fs other)
    (links : Nat)
    (here : Location)
    (way : List Step) :
    other.walk true links here way = fs.walk true links here way := by
  induction links generalizing here way with
  | zero => exact h.walk_of_follow (fun _ _ _ => rfl) here way
  | succ links ih =>
      have hFollow : ∀ here target rest,
          other.follow here target rest (links + 1) =
            fs.follow here target rest (links + 1) :=
        fun _ _ _ => ih _ _
      exact h.walk_of_follow hFollow here way

/- A path leads to the same place. -/
theorem resolve
    (h : SameEntries fs other)
    (path : String) :
    other.resolve path = fs.resolve path := by
  rw [FileSystem.resolve, FileSystem.resolve, h.home]
  simp only [h.walk]

theorem locate
    (h : SameEntries fs other)
    (path : String) :
    other.locate path = fs.locate path := by
  rw [FileSystem.locate, FileSystem.locate, h.resolve]

------------------------------------------------------------
-- What Is Read
------------------------------------------------------------

/-
  A path leads nowhere for the same reason, or it leads to nodes
  with the same entry at the same location.
-/
theorem stat_cases
    (h : SameEntries fs other)
    (path : String) :
    (∃ cause, fs.stat path = .error cause ∧
        other.stat path = .error cause) ∨
      ∃ loc node found, fs.stat path = .ok node ∧
        other.stat path = .ok found ∧ fs.at? loc = some node ∧
        other.at? loc = some found ∧ found.entry = node.entry := by
  rw [FileSystem.stat, FileSystem.stat, h.locate]
  cases fs.locate path with
  | error cause => exact Or.inl ⟨cause, rfl, rfl⟩
  | ok loc =>
      have hEntry := h.entries loc
      rw [entryAt?_eq_map_at?, entryAt?_eq_map_at?] at hEntry
      simp only [bind, Except.bind]
      cases hNode : fs.at? loc with
      | none =>
          rw [hNode, Option.map_none, Option.map_eq_none_iff] at hEntry
          rw [hEntry]
          exact Or.inl ⟨.notFound, rfl, rfl⟩
      | some node =>
          rw [hNode, Option.map_some, Option.map_eq_some_iff] at hEntry
          rcases hEntry with ⟨found, hFound, hSame⟩
          rw [hFound]
          exact Or.inr ⟨loc, node, found, rfl, rfl, hNode, hFound, hSame⟩

/- What is read as bytes depends on the entry. -/
theorem readBytes
    (h : SameEntries fs other)
    (path : String) :
    other.readBytes path = fs.readBytes path := by
  rw [FileSystem.readBytes, FileSystem.readBytes]
  rcases h.stat_cases path with
    ⟨cause, hStat, hOther⟩ |
    ⟨loc, node, found, hStat, hOther, -, -, hEntry⟩
  · rw [hStat, hOther]
  · rw [hStat, hOther]
    cases node <;> cases found <;> simp [Node.entry] at hEntry
    · subst hEntry
      rfl
    · rfl
    · rfl

theorem readText
    (h : SameEntries fs other)
    (path : String) :
    other.readText path = fs.readText path := by
  rw [FileSystem.readText, FileSystem.readText, h.readBytes]

/- Whether there is a file is whether bytes can be read. -/
theorem isFile
    (h : SameEntries fs other)
    (path : String) :
    other.isFile path = fs.isFile path := by
  have hIsFile : ∀ fs : FileSystem,
      fs.isFile path = (fs.readBytes path).isOk := by
    intro fs
    rw [FileSystem.isFile, FileSystem.readBytes]
    cases fs.stat path with
    | error cause => rfl
    | ok node => cases node <;> rfl
  rw [hIsFile, hIsFile, h.readBytes]

/- A directory is listed in some other order. -/
theorem keys_perm
    (h : SameEntries fs other)
    (hProper : fs.IsProper)
    (hOther : other.IsProper)
    {loc : Location}
    {entries others : List (String × Node)}
    (hAt : fs.at? loc = some (.directory entries))
    (hOthers : other.at? loc = some (.directory others)) :
    (Keyed.keys others).Perm (Keyed.keys entries) := by
  refine (List.perm_ext_iff_of_nodup (hOther loc others hOthers).1
    (hProper loc entries hAt).1).mpr fun name => ?_
  have hName := h.entries (loc ++ [name])
  rw [entryAt?_snoc hAt, entryAt?_snoc hOthers] at hName
  have hNone := congrArg (· = none) hName
  simpa [Keyed.get?_eq_none_iff, not_iff_not] using hNone

/-
  Listing a directory gives the same names in some order, or it
  fails in the same way.
-/
theorem listDirectory
    (h : SameEntries fs other)
    (hProper : fs.IsProper)
    (hOther : other.IsProper)
    (path : String) :
    (∃ cause, fs.listDirectory path = .error cause ∧
        other.listDirectory path = .error cause) ∨
      ∃ names others, fs.listDirectory path = .ok names ∧
        other.listDirectory path = .ok others ∧ others.Perm names := by
  rw [FileSystem.listDirectory, FileSystem.listDirectory]
  rcases h.stat_cases path with
    ⟨cause, hStat, hOtherStat⟩ |
    ⟨loc, node, found, hStat, hOtherStat, hAt, hFound, hEntry⟩
  · rw [hStat, hOtherStat]
    exact Or.inl ⟨cause, rfl, rfl⟩
  · rw [hStat, hOtherStat]
    cases node with
    | directory entries =>
        rcases Node.eq_directory_of_entry hEntry with ⟨others, rfl⟩
        exact Or.inr ⟨_, _, rfl, rfl,
          h.keys_perm hProper hOther hAt hFound⟩
    | file content =>
        cases found <;> simp [Node.entry] at hEntry
        exact Or.inl ⟨.notDirectory, rfl, rfl⟩
    | link target =>
        cases found <;> simp [Node.entry] at hEntry
        exact Or.inl ⟨.notDirectory, rfl, rfl⟩

end SameEntries

end Bindery.FileSystem

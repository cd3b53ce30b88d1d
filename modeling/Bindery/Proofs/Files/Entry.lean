import Bindery.Files.FileSystem
import Mathlib.Tactic.ByContra

/-
  This file defines what stands at the locations of a file
  system, and says how putting and removing nodes changes it.
  An entry does not show what is below it, so that a change at
  one location leaves the entries elsewhere as they are.

  Key definitions include:
    * `Entry`
    * `Node.entryAt?`
    * `Node.Descends`
    * `FileSystem.entryAt?`
    * `FileSystem.bare`

  Key theorems include:
    * `Node.Descends.induct`
    * `FileSystem.directory_of_isPrefix`
    * `FileSystem.entryAt?_put`
    * `FileSystem.entryAt?_put_leaf`
    * `FileSystem.entryAt?_remove`
-/

namespace Bindery

------------------------------------------------------------
-- Entries
------------------------------------------------------------

/- What stands at a location, without what is below it. -/
inductive Entry where
| file (content : ByteArray)
| directory
| link (target : String)

/- Two files are the same entry when their bytes are the same. -/
instance : DecidableEq Entry
| .file ⟨bytes⟩, .file ⟨others⟩ =>
    decidable_of_iff (bytes = others) (by simp)
| .link target, .link other =>
    decidable_of_iff (target = other) (by simp)
| .directory, .directory => .isTrue rfl
| .file _, .directory => .isFalse Entry.noConfusion
| .file _, .link _ => .isFalse Entry.noConfusion
| .directory, .file _ => .isFalse Entry.noConfusion
| .directory, .link _ => .isFalse Entry.noConfusion
| .link _, .file _ => .isFalse Entry.noConfusion
| .link _, .directory => .isFalse Entry.noConfusion

namespace Node

/- The entry of a node. -/
def entry : Node → Entry
| .file content => .file content
| .directory _ => .directory
| .link target => .link target

/- The entry at a location below a node. -/
def entryAt? (node : Node) (loc : Location) : Option Entry :=
  (node.at? loc).map entry

@[simp] theorem entryAt?_nil (node : Node) :
    node.entryAt? [] = some node.entry := by
  simp [entryAt?, at?]

@[simp] theorem entryAt?_directory_cons
    (entries : List (String × Node))
    (name : String)
    (rest : Location) :
    (Node.directory entries).entryAt? (name :: rest) =
      (Keyed.get? name entries).bind (·.entryAt? rest) := by
  cases h : Keyed.get? name entries with
  | none => simp [entryAt?, at?, h]
  | some child => simp [entryAt?, at?, h]

/- Nothing is below a node that is no directory. -/
theorem entryAt?_cons_of_ne_directory
    {node : Node}
    (h : node.entry ≠ .directory)
    (name : String)
    (rest : Location) :
    node.entryAt? (name :: rest) = none := by
  cases node with
  | file content => simp [entryAt?, at?]
  | link target => simp [entryAt?, at?]
  | directory entries => exact absurd rfl h

theorem eq_directory_of_entry
    {node : Node}
    (h : node.entry = .directory) :
    ∃ entries, node = .directory entries := by
  cases node with
  | directory entries => exact ⟨entries, rfl⟩
  | file content => simp [entry] at h
  | link target => simp [entry] at h

theorem at?_append
    (node : Node)
    (above below : Location) :
    node.at? (above ++ below) =
      (node.at? above).bind (·.at? below) := by
  induction above generalizing node with
  | nil => simp [at?]
  | cons name rest ih =>
      cases node with
      | file content => simp [at?]
      | link target => simp [at?]
      | directory entries =>
          cases h : Keyed.get? name entries with
          | none => simp [at?, h]
          | some child => simp [at?, h, ih]

/- What has something below it is a directory. -/
theorem entryAt?_directory_of_append
    {node : Node}
    {above : Location}
    {name : String}
    {rest : Location}
    {e : Entry}
    (h : node.entryAt? (above ++ name :: rest) = some e) :
    node.entryAt? above = some .directory := by
  cases hAbove : node.at? above with
  | none => simp [entryAt?, at?_append, hAbove] at h
  | some child =>
      have hChild : child.entry = .directory := by
        by_contra hNot
        have hNone := entryAt?_cons_of_ne_directory hNot name rest
        have hSome : child.entryAt? (name :: rest) = some e := by
          simpa [entryAt?, at?_append, hAbove] using h
        simp [hNone] at hSome
      simp [entryAt?, hAbove, hChild]

/-
  A change goes down to its location through the entries on the
  way there, and where one of them is missing nothing changes.
-/
structure Descends (change : Node → Location → Node) : Prop where
  leaf : ∀ node name rest, node.entry ≠ .directory →
    change node (name :: rest) = node
  missing : ∀ entries name next rest,
    Keyed.get? name entries = none →
      change (.directory entries) (name :: next :: rest) =
        .directory entries
  child : ∀ entries name next rest child,
    Keyed.get? name entries = some child →
      change (.directory entries) (name :: next :: rest) =
        .directory
          (Keyed.put name (change child (next :: rest)) entries)

theorem descends_put (new : Node) : Descends (put new) where
  leaf node name rest hLeaf := by
    cases node with
    | file content => simp [put]
    | link target => simp [put]
    | directory entries => exact absurd rfl hLeaf
  missing entries name next rest hNone := by simp [put, hNone]
  child entries name next rest child hChild := by simp [put, hChild]

theorem descends_remove : Descends remove where
  leaf node name rest hLeaf := by
    cases node with
    | file content => simp [remove]
    | link target => simp [remove]
    | directory entries => exact absurd rfl hLeaf
  missing entries name next rest hNone := by simp [remove, hNone]
  child entries name next rest child hChild := by
    simp [remove, hChild]

/-
  What holds where there is no last directory, so that nothing
  changes, and in the last directory, and goes up from an entry
  to its directory, holds of a change.
-/
theorem Descends.induct
    {change : Node → Location → Node}
    (h : Descends change)
    {motive : Node → Location → Node → Prop}
    (same : ∀ node loc, node.at? loc = none →
      node.entryAt? loc.dropLast ≠ some .directory →
        motive node loc node)
    (last : ∀ entries name,
      motive (.directory entries) [name]
        (change (.directory entries) [name]))
    (above : ∀ entries name next rest child after,
      Keyed.get? name entries = some child →
        motive child (next :: rest) after →
          motive (.directory entries) (name :: next :: rest)
            (.directory (Keyed.put name after entries)))
    (node : Node)
    {loc : Location}
    (hLoc : loc ≠ []) :
    motive node loc (change node loc) := by
  induction loc generalizing node with
  | nil => exact absurd rfl hLoc
  | cons name rest ih =>
      by_cases hLeaf : node.entry = .directory
      · rcases eq_directory_of_entry hLeaf with ⟨entries, rfl⟩
        cases rest with
        | nil => exact last entries name
        | cons next below =>
            cases hGet : Keyed.get? name entries with
            | none =>
                rw [h.missing entries name next below hGet]
                exact same _ _ (by simp [at?, hGet]) (by simp [hGet])
            | some child =>
                rw [h.child entries name next below child hGet]
                exact above entries name next below child _ hGet
                  (ih child (by simp))
      · rw [h.leaf node name rest hLeaf]
        apply same
        · cases node with
          | file content => simp [at?]
          | link target => simp [at?]
          | directory entries => exact absurd rfl hLeaf
        · cases rest with
          | nil => simpa using hLeaf
          | cons next below =>
              rw [List.dropLast_cons_cons,
                entryAt?_cons_of_ne_directory hLeaf]
              simp

/-
  Putting a node into a directory changes what is at its
  location and below, and nothing else.
-/
theorem entryAt?_put
    (new node : Node)
    (dir : Location)
    (name : String)
    (loc : Location)
    (h : node.entryAt? dir = some .directory) :
    (put new node (dir ++ [name])).entryAt? loc =
      if dir ++ [name] <+: loc then
        new.entryAt? (loc.drop (dir.length + 1))
      else
        node.entryAt? loc := by
  have hPlace : dir ++ [name] ≠ [] := by simp
  have hPut := (descends_put new).induct
    (motive := fun node place after =>
      node.entryAt? place.dropLast = some .directory →
        ∀ loc, after.entryAt? loc =
          if place <+: loc then new.entryAt? (loc.drop place.length)
          else node.entryAt? loc)
    ?same ?last ?above node hPlace
  · simpa using hPut (by simpa using h) loc
  case same =>
    intro node place _ hNot hDirectory
    exact absurd hDirectory hNot
  case last =>
    intro entries name _ loc
    cases loc with
    | nil => simp [put, entry]
    | cons first rest =>
        by_cases hFirst : name = first
        · simp [put, Keyed.get?_put, hFirst]
        · simp [put, Keyed.get?_put, hFirst]
  case above =>
    intro entries name next rest child after hGet ih hDirectory loc
    have hChild : child.entryAt? (next :: rest).dropLast =
        some .directory := by
      simpa [hGet] using hDirectory
    cases loc with
    | nil => simp [entry]
    | cons first below =>
        by_cases hFirst : name = first
        · subst hFirst
          simp [Keyed.get?_put, hGet, ih hChild below]
        · simp [Keyed.get?_put, hFirst]

/- Removing a node removes it and what is below it. -/
theorem entryAt?_remove
    (node : Node)
    (dir : Location)
    (name : String)
    (loc : Location) :
    (node.remove (dir ++ [name])).entryAt? loc =
      if dir ++ [name] <+: loc then none
      else node.entryAt? loc := by
  refine descends_remove.induct (motive := fun node place after =>
    ∀ loc, after.entryAt? loc =
      if place <+: loc then none else node.entryAt? loc)
    ?same ?last ?above node (by simp) loc
  case same =>
    intro node place hNone _ loc
    split
    · rename_i hPrefix
      rcases hPrefix with ⟨below, rfl⟩
      simp [entryAt?, at?_append, hNone]
    · rfl
  case last =>
    intro entries name loc
    cases loc with
    | nil => simp [remove, entry]
    | cons first rest =>
        by_cases hFirst : name = first
        · simp [remove, Keyed.get?_erase, hFirst]
        · simp [remove, Keyed.get?_erase, hFirst]
  case above =>
    intro entries name next rest child after hGet ih loc
    cases loc with
    | nil => simp [entry]
    | cons first below =>
        by_cases hFirst : name = first
        · subst hFirst
          simp [Keyed.get?_put, hGet, ih below]
        · simp [Keyed.get?_put, hFirst]

end Node

------------------------------------------------------------
-- Entries of a File System
------------------------------------------------------------

namespace FileSystem

/- The entry at a location of a file system. -/
def entryAt? (fs : FileSystem) (loc : Location) : Option Entry :=
  fs.root.entryAt? loc

theorem entryAt?_eq_map_at?
    (fs : FileSystem)
    (loc : Location) :
    fs.entryAt? loc = (fs.at? loc).map Node.entry := rfl

theorem entryAt?_eq_directory_iff
    {fs : FileSystem}
    {loc : Location} :
    fs.entryAt? loc = some .directory ↔
      ∃ entries, fs.at? loc = some (.directory entries) := by
  constructor
  · intro h
    rcases Option.map_eq_some_iff.mp h with ⟨node, hNode, hEntry⟩
    rcases Node.eq_directory_of_entry hEntry with ⟨entries, rfl⟩
    exact ⟨entries, hNode⟩
  · rintro ⟨entries, hNode⟩
    simp [entryAt?_eq_map_at?, hNode, Node.entry]

theorem entryAt?_eq_file_iff
    {fs : FileSystem}
    {loc : Location}
    {content : ByteArray} :
    fs.entryAt? loc = some (.file content) ↔
      fs.at? loc = some (.file content) := by
  rw [entryAt?_eq_map_at?]
  cases fs.at? loc with
  | none => simp
  | some node => cases node <;> simp [Node.entry]

theorem entryAt?_eq_none_iff
    {fs : FileSystem}
    {loc : Location} :
    fs.entryAt? loc = none ↔ fs.at? loc = none := by
  simp [entryAt?_eq_map_at?]

theorem isDirectoryAt_iff
    {fs : FileSystem}
    {loc : Location} :
    fs.isDirectoryAt loc = true ↔
      fs.entryAt? loc = some .directory := by
  unfold isDirectoryAt
  rw [entryAt?_eq_map_at?]
  cases fs.at? loc with
  | none => simp
  | some node => cases node <;> simp [Node.isDirectory, Node.entry]

/- What stands below a node of a file system. -/
theorem entryAt?_of_at?
    {fs : FileSystem}
    {above : Location}
    {node : Node}
    (h : fs.at? above = some node)
    (below : Location) :
    fs.entryAt? (above ++ below) = node.entryAt? below := by
  have hNode : fs.root.at? above = some node := h
  rw [entryAt?, Node.entryAt?, Node.at?_append, hNode]
  rfl

/- The entries in a directory. -/
theorem entryAt?_snoc
    {fs : FileSystem}
    {loc : Location}
    {entries : List (String × Node)}
    (h : fs.at? loc = some (.directory entries))
    (name : String) :
    fs.entryAt? (loc ++ [name]) =
      (Keyed.get? name entries).map Node.entry := by
  unfold at? at h
  rw [entryAt?, Node.entryAt?, Node.at?_append, h]
  cases hName : Keyed.get? name entries with
  | none => simp [Node.at?, hName]
  | some child => simp [Node.at?, hName]

/- What has something below it is a directory. -/
theorem directory_of_append
    {fs : FileSystem}
    {above : Location}
    (below : Location)
    (hBelow : below ≠ [])
    (h : fs.entryAt? (above ++ below) ≠ none) :
    fs.entryAt? above = some .directory := by
  rcases Option.ne_none_iff_exists'.mp h with ⟨e, hEntry⟩
  cases below with
  | nil => exact absurd rfl hBelow
  | cons name rest => exact Node.entryAt?_directory_of_append hEntry

theorem directory_of_isPrefix
    {fs : FileSystem}
    {above loc : Location}
    (hPrefix : above <+: loc)
    (hNe : above ≠ loc)
    (h : fs.entryAt? loc ≠ none) :
    fs.entryAt? above = some .directory := by
  rcases hPrefix with ⟨below, rfl⟩
  exact directory_of_append _ (by simpa using hNe) h

/- Everything on the way to a directory is one. -/
theorem directory_above
    {fs : FileSystem}
    {above loc : Location}
    (hPrefix : above <+: loc)
    (h : fs.entryAt? loc = some .directory) :
    fs.entryAt? above = some .directory := by
  by_cases hEq : above = loc
  · rw [hEq, h]
  · exact directory_of_isPrefix hPrefix hEq (by simp [h])

theorem directory_root
    {fs : FileSystem}
    {loc : Location}
    (h : fs.entryAt? loc = some .directory) :
    fs.entryAt? [] = some .directory :=
  directory_above List.nil_prefix h

/- Below what is no directory there is nothing. -/
theorem entryAt?_eq_none_of_isPrefix
    {fs : FileSystem}
    {above loc : Location}
    (hPrefix : above <+: loc)
    (hNe : above ≠ loc)
    (h : fs.entryAt? above ≠ some .directory) :
    fs.entryAt? loc = none := by
  by_contra hSome
  exact h (directory_of_isPrefix hPrefix hNe hSome)

/- Where nothing is, nothing is below, either. -/
theorem entryAt?_of_isPrefix_of_none
    {fs : FileSystem}
    {above loc : Location}
    (hPrefix : above <+: loc)
    (h : fs.entryAt? above = none) :
    fs.entryAt? loc = none := by
  by_cases hEq : above = loc
  · rw [← hEq, h]
  · exact entryAt?_eq_none_of_isPrefix hPrefix hEq (by simp [h])

/- A longer location is not on the way to a shorter one. -/
theorem not_snoc_isPrefix
    (loc : Location)
    (name : String) :
    ¬ loc ++ [name] <+: loc := by
  intro h
  have hLength := h.length_le
  simp only [List.length_append, List.length_singleton] at hLength
  omega

/- Putting a node into a directory. -/
theorem entryAt?_put
    {fs : FileSystem}
    {dir : Location}
    (h : fs.entryAt? dir = some .directory)
    (name : String)
    (node : Node)
    (loc : Location) :
    (fs.put (dir ++ [name]) node).entryAt? loc =
      if dir ++ [name] <+: loc then
        node.entryAt? (loc.drop (dir.length + 1))
      else
        fs.entryAt? loc :=
  Node.entryAt?_put node fs.root dir name loc h

/- A node with nothing below it in place of one that is alike. -/
theorem entryAt?_put_leaf
    {fs : FileSystem}
    {dir : Location}
    {name : String}
    {node : Node}
    (h : fs.entryAt? dir = some .directory)
    (hOld : fs.entryAt? (dir ++ [name]) ≠ some .directory)
    (hLeaf : ∀ first rest, node.entryAt? (first :: rest) = none)
    (loc : Location) :
    (fs.put (dir ++ [name]) node).entryAt? loc =
      if loc = dir ++ [name] then some node.entry
      else fs.entryAt? loc := by
  rw [entryAt?_put h]
  by_cases hEq : loc = dir ++ [name]
  · subst hEq
    simp
  · by_cases hPrefix : dir ++ [name] <+: loc
    · have hNone : fs.entryAt? loc = none :=
        entryAt?_eq_none_of_isPrefix hPrefix (Ne.symm hEq) hOld
      rcases hPrefix with ⟨below, rfl⟩
      cases below with
      | nil => simp at hEq
      | cons first rest =>
          have hDrop :
              (dir ++ [name] ++ first :: rest).drop
                (dir.length + 1) = first :: rest := by
            rw [List.drop_append_of_le_length (by simp)]
            simp
          rw [if_pos (List.prefix_append _ _), hDrop, hLeaf,
            if_neg hEq, hNone]
    · simp [hPrefix, hEq]

theorem entryAt?_put_file
    {fs : FileSystem}
    {dir : Location}
    {name : String}
    (h : fs.entryAt? dir = some .directory)
    (hOld : fs.entryAt? (dir ++ [name]) ≠ some .directory)
    (content : ByteArray)
    (loc : Location) :
    (fs.put (dir ++ [name]) (.file content)).entryAt? loc =
      if loc = dir ++ [name] then some (.file content)
      else fs.entryAt? loc :=
  entryAt?_put_leaf h hOld
    (fun first rest => by simp [Node.entryAt?, Node.at?]) loc

theorem entryAt?_put_directory
    {fs : FileSystem}
    {dir : Location}
    {name : String}
    (h : fs.entryAt? dir = some .directory)
    (hOld : fs.entryAt? (dir ++ [name]) ≠ some .directory)
    (loc : Location) :
    (fs.put (dir ++ [name]) (.directory [])).entryAt? loc =
      if loc = dir ++ [name] then some .directory
      else fs.entryAt? loc :=
  entryAt?_put_leaf h hOld
    (fun first rest => by simp [Keyed.get?]) loc

/- Removing a node removes what is below it, too. -/
theorem entryAt?_remove
    (fs : FileSystem)
    (dir : Location)
    (name : String)
    (loc : Location) :
    (fs.remove (dir ++ [name])).entryAt? loc =
      if dir ++ [name] <+: loc then none else fs.entryAt? loc :=
  Node.entryAt?_remove fs.root dir name loc

/- The file system with nothing but its working directory. -/
def bare : FileSystem where
  root := .directory []
  home := []

theorem entryAt?_bare (loc : Location) :
    bare.entryAt? loc = if loc = [] then some .directory else none := by
  cases loc with
  | nil => rfl
  | cons name rest => rfl

/- A file system with files in an output directory and beside it. -/
def furnished : FileSystem where
  root := .directory
    [("work", .directory
      [("notes", .file "kept".toUTF8),
        ("out", .directory
          [("a", .directory
              [("b", .file "old".toUTF8),
                ("z", .file "kept".toUTF8)]),
            ("full", .directory [("z", .file "kept".toUTF8)])])])]
  home := ["work"]

end FileSystem

end Bindery

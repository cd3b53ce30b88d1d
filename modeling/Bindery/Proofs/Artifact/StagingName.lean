import Bindery.Proofs.Artifact.Insertion
import Bindery.Proofs.Artifact.Staging

/-
  This file says what the name of a staging directory depends
  on: on which names are taken, not on how often or in which
  order.  A new empty directory with a name that is mentioned
  anyway changes nothing, and where fewer names are taken the
  name is not longer.

  Key definitions include:
    * `Node.linkTargets`

  Key theorems include:
    * `exists_le_stagingName`
    * `freshStagingName_congr`
    * `byteLength_stagingName_mono`
    * `Node.linkTargets_put`
    * `mem_takenNames_iff`
    * `freshStagingName_put_directory`
-/

namespace Bindery

open FileSystem

------------------------------------------------------------
-- The First Name That Is Not Taken
------------------------------------------------------------

/- All names before the fresh one are taken. -/
theorem exists_least_stagingName (taken : List String) :
    ∃ n, freshStagingName taken = stagingName n ∧
      stagingName n ∉ taken ∧ ∀ m < n, stagingName m ∈ taken := by
  rcases exists_stagingName_not_mem taken with ⟨free, hRange, hFree⟩
  unfold freshStagingName
  cases hFind : (List.range (taken.length + 1)).find?
      (fun n => !taken.contains (stagingName n)) with
  | none =>
      have hTaken := List.find?_eq_none.mp hFind free hRange
      simp [hFree] at hTaken
  | some n =>
      have hLeast := List.find?_range_eq_some.mp hFind
      refine ⟨n, rfl, by simpa using hLeast.1, fun m hm => ?_⟩
      simpa using hLeast.2.2 m hm

/- Where fewer names are taken, no later one is drawn. -/
theorem exists_le_stagingName
    {taken others : List String}
    (h : taken ⊆ others) :
    ∃ m n, freshStagingName taken = stagingName m ∧
      freshStagingName others = stagingName n ∧ m ≤ n := by
  rcases exists_least_stagingName taken with ⟨m, hName, -, hBefore⟩
  rcases exists_least_stagingName others with ⟨n, hOther, hFree, -⟩
  refine ⟨m, n, hName, hOther, ?_⟩
  by_contra hMore
  exact hFree (h (hBefore n (by omega)))

/- Names that are taken twice or in another order are still taken. -/
theorem freshStagingName_congr
    {taken others : List String}
    (h : ∀ name, name ∈ taken ↔ name ∈ others) :
    freshStagingName taken = freshStagingName others := by
  rcases exists_le_stagingName fun name => (h name).mp with
    ⟨m, n, hName, hOther, hLess⟩
  rcases exists_le_stagingName fun name => (h name).mpr with
    ⟨n', m', hOther', hName', hMore⟩
  have hFirst := stagingName_injective (hName.symm.trans hName')
  have hSecond := stagingName_injective (hOther.symm.trans hOther')
  rw [hName, hOther, show m = n by omega]

theorem toList_stagingName (n : Nat) :
    (stagingName n).toList =
      ".declgen-".toList ++ Nat.toDigits 10 (100000 + n) := by
  simp [stagingName, Nat.repr]

/- A number has at least the digits of those before it. -/
theorem length_toDigits_mono
    {m n : Nat}
    (h : m ≤ n) :
    (Nat.toDigits 10 m).length ≤ (Nat.toDigits 10 n).length := by
  have hLast := (Nat.length_toDigits_le_iff (by omega)
    (@Nat.length_toDigits_pos 10 n)).mp (Nat.le_refl _)
  rw [Nat.length_toDigits_le_iff (by omega) Nat.length_toDigits_pos]
  omega

/- A name that is drawn earlier is no longer than a later one. -/
theorem byteLength_stagingName_mono
    {m n : Nat}
    (h : m ≤ n) :
    Text.byteLength (stagingName m).toList ≤
      Text.byteLength (stagingName n).toList := by
  have hSize : ∀ k, ∀ c ∈ Nat.toDigits 10 k, c.utf8Size = 1 := by
    intro k c hMem
    have hDigit := Nat.isDigit_of_mem_toDigits (by omega) (by omega) hMem
    rw [Char.utf8Size_eq_one_iff]
    simp only [Char.isDigit, Bool.and_eq_true, decide_eq_true_eq] at hDigit
    exact UInt32.le_trans hDigit.2 (by decide)
  rw [toList_stagingName, toList_stagingName, Text.byteLength_append,
    Text.byteLength_append, Text.byteLength_eq_length (hSize _),
    Text.byteLength_eq_length (hSize _)]
  exact Nat.add_le_add_left (length_toDigits_mono (by omega)) _

theorem nul_not_mem_stagingName (n : Nat) :
    '\x00' ∉ (stagingName n).toList := by
  rw [toList_stagingName, List.mem_append, not_or]
  refine ⟨by decide, fun hMem => ?_⟩
  have hDigit := Nat.isDigit_of_mem_toDigits (by omega) (by omega) hMem
  simp at hDigit

------------------------------------------------------------
-- Targets of Links
------------------------------------------------------------

namespace Node

/- The target of a link. -/
def target? : Node → Option String
| .link target => some target
| _ => none

/- The targets of the links below a node. -/
def linkTargets (node : Node) : List String :=
  node.descendants.filterMap fun (_, below) => below.target?

/- The targets of the links among some entries and below them. -/
def entryTargets (entries : List (String × Node)) : List String :=
  (entryDescendants entries).filterMap fun (_, below) => below.target?

theorem linkTargets_directory (entries : List (String × Node)) :
    (Node.directory entries).linkTargets = entryTargets entries := by
  simp [linkTargets, entryTargets, descendants]

theorem entryTargets_cons
    (name : String)
    (node : Node)
    (rest : List (String × Node)) :
    entryTargets ((name, node) :: rest) =
      node.target?.toList ++ (node.linkTargets ++ entryTargets rest) := by
  cases h : node.target? with
  | none =>
      simp [entryTargets, entryDescendants, linkTargets, h,
        List.filterMap_map]
  | some target =>
      simp [entryTargets, entryDescendants, linkTargets, h,
        List.filterMap_map]

/-
  An entry that is put beside others or in place of one with the
  same links leaves the targets as they are.
-/
theorem entryTargets_put
    {name : String}
    {new : Node}
    {entries : List (String × Node)}
    (hNew : Keyed.get? name entries = none →
      new.target? = none ∧ new.linkTargets = [])
    (hOld : ∀ old, Keyed.get? name entries = some old →
      new.target? = old.target? ∧
        new.linkTargets = old.linkTargets) :
    entryTargets (Keyed.put name new entries) =
      entryTargets entries := by
  induction entries with
  | nil =>
      rcases hNew rfl with ⟨hTarget, hTargets⟩
      rw [Keyed.put, entryTargets_cons, hTarget, hTargets]
      rfl
  | cons entry rest ih =>
      rcases entry with ⟨k, node⟩
      by_cases hKey : k = name
      · rcases hOld node (by simp [Keyed.get?, hKey]) with
          ⟨hTarget, hTargets⟩
        rw [Keyed.put, if_pos hKey, entryTargets_cons,
          entryTargets_cons, hTarget, hTargets]
      · have hRest : Keyed.get? name ((k, node) :: rest) =
            Keyed.get? name rest := by
          simp [Keyed.get?, hKey]
        rw [hRest] at hNew hOld
        rw [Keyed.put, if_neg hKey, entryTargets_cons,
          entryTargets_cons, ih hNew hOld]

/- So does a node without links where nothing was. -/
theorem linkTargets_put
    {new : Node}
    (hTarget : new.target? = none)
    (hTargets : new.linkTargets = [])
    {node : Node}
    {loc : Location}
    (h : node.at? loc = none) :
    (put new node loc).linkTargets = node.linkTargets ∧
      (put new node loc).target? = node.target? := by
  have hLoc : loc ≠ [] := by
    rintro rfl
    simp [at?] at h
  refine (descends_put new).induct (motive := fun node loc after =>
    node.at? loc = none → after.linkTargets = node.linkTargets ∧
      after.target? = node.target?) ?same ?last ?above node hLoc h
  case same =>
    intro node loc _ _ _
    exact ⟨rfl, rfl⟩
  case last =>
    intro entries name hAt
    have hNone : Keyed.get? name entries = none := by
      cases hGet : Keyed.get? name entries with
      | none => rfl
      | some child => simp [at?, hGet] at hAt
    rw [put, linkTargets_directory, linkTargets_directory]
    exact ⟨entryTargets_put (fun _ => ⟨hTarget, hTargets⟩)
      (by simp [hNone]), rfl⟩
  case above =>
    intro entries name next rest child after hGet ih hAt
    rcases ih (by simpa [at?, hGet] using hAt) with ⟨hSame, hSameTarget⟩
    rw [linkTargets_directory, linkTargets_directory]
    refine ⟨entryTargets_put (by simp [hGet]) fun old hOld => ?_, rfl⟩
    rw [hGet] at hOld
    obtain rfl : child = old := by simpa using hOld
    exact ⟨hSameTarget, hSame⟩

end Node

------------------------------------------------------------
-- Where a Staging Directory Is Made
------------------------------------------------------------

section NewDirectory

variable {fs : FileSystem} {parent name : String} {dir : Location}

theorem linkNames_eq_flatMap (fs : FileSystem) :
    fs.linkNames = fs.root.linkTargets.flatMap Path.names := by
  unfold linkNames Node.linkTargets
  induction fs.root.descendants with
  | nil => rfl
  | cons entry rest ih =>
      rcases entry with ⟨loc, node⟩
      rw [List.flatMap_cons, ih]
      cases node <;> rfl

/- A new empty directory mentions no names. -/
theorem linkNames_put_directory
    (hNone : fs.entryAt? dir = none) :
    (fs.put dir (.directory [])).linkNames = fs.linkNames := by
  rw [linkNames_eq_flatMap, linkNames_eq_flatMap]
  exact congrArg _ (Node.linkTargets_put rfl rfl
    (entryAt?_eq_none_iff.mp hNone)).1

theorem listDirectory_eq_keys
    {entries : List (String × Node)}
    (hCheck : checkPath parent = .ok ())
    (hParent : fs.LeadsTo parent dir)
    (hNode : fs.at? dir = some (.directory entries)) :
    fs.listDirectory parent = .ok (Keyed.keys entries) := by
  have hStat : fs.stat parent = .ok (.directory entries) :=
    stat_eq_ok_iff.mpr
      ⟨dir, (resolve_eq_present_iff_leadsTo hParent.directory).mpr
        ⟨hCheck, hParent⟩, hNode⟩
  simp [listDirectory, hStat, bind, Except.bind]

/- A name is taken if something has it or a link mentions it. -/
theorem mem_takenNames_iff
    (hCheck : checkPath parent = .ok ())
    (hParent : fs.LeadsTo parent dir) :
    name ∈ takenNames fs parent ↔
      fs.entryAt? (dir ++ [name]) ≠ none ∨ name ∈ fs.linkNames := by
  rcases entryAt?_eq_directory_iff.mp hParent.directory with
    ⟨entries, hNode⟩
  have hEntry :
      fs.entryAt? (dir ++ [name]) = none ↔
        name ∉ Keyed.keys entries := by
    rw [entryAt?_snoc hNode, Option.map_eq_none_iff,
      Keyed.get?_eq_none_iff]
  simp only [takenNames, listDirectory_eq_keys hCheck hParent hNode,
    List.mem_append, ne_eq, hEntry, not_not]

/- Beside a new directory staging goes on under the same name. -/
theorem freshStagingName_put_directory
    {mentioned : List String}
    (hCheck : checkPath parent = .ok ())
    (hParent : fs.LeadsTo parent dir)
    (hNone : fs.entryAt? (dir ++ [name]) = none)
    (hMentioned : name ∈ mentioned) :
    freshStagingName
        (takenNames (fs.put (dir ++ [name]) (.directory [])) parent ++
          mentioned) =
      freshStagingName (takenNames fs parent ++ mentioned) := by
  have hKeeps : Keeps fs (fs.put (dir ++ [name]) (.directory [])) :=
    (Grows.of_put_directory hParent.directory hNone).keeps
  apply freshStagingName_congr
  intro other
  rw [List.mem_append, List.mem_append,
    mem_takenNames_iff hCheck (hParent.mono hKeeps),
    mem_takenNames_iff hCheck hParent, linkNames_put_directory hNone,
    entryAt?_put_directory hParent.directory (by simp [hNone])]
  by_cases hOther : other = name
  · simp [hOther, hMentioned]
  · simp [hOther]

end NewDirectory

end Bindery

import Bindery.Proofs.Files.Proper
import Bindery.Proofs.Sorting

/-
  This file says in which order the nodes below a node are gone
  through: each of them comes once, in the ascending order of
  the names on the way to it.  So what is picked from them does
  not depend on how directories are listed, and the regular
  files neither on directories without files nor on links.

  Key definitions include:
    * `Node.Ascending`
    * `Node.files`

  Key theorems include:
    * `Node.mem_collect_iff`
    * `Node.ascending_collect`
    * `Node.Ascending.exists_first_iff`
    * `Node.mem_visits_iff`
    * `Node.mem_files_iff`
    * `Node.files_eq_filterMap_visits`
    * `Node.files_eq_of_entries`
-/

namespace Bindery.Node

------------------------------------------------------------
-- What Is Picked
------------------------------------------------------------

section Collect

variable {α : Type} {pick : Node → Option α} {node : Node}
variable {loc : Location} {a : α}

theorem collectEntries_eq_map
    (pick : Node → Option α)
    (entries : List (String × Node)) :
    collectEntries pick entries = entries.map (fun (name, node) =>
      (name, node.collect pick)) := by
  induction entries with
  | nil => rfl
  | cons entry rest ih =>
      rcases entry with ⟨name, node⟩
      rw [collectEntries, ih]
      rfl

/- What is picked from a node itself has no names on the way. -/
theorem mem_map_toList_iff {found : Option α} :
    (loc, a) ∈ found.toList.map (fun a => (([] : Location), a)) ↔
      loc = [] ∧ found = some a := by
  cases found with
  | none => simp
  | some b => simp [eq_comm]

/- What is picked below a directory lies in its entries. -/
theorem mem_collect_directory_iff {entries : List (String × Node)} :
    (loc, a) ∈ (Node.directory entries).collect pick ↔
      (loc = [] ∧ pick (.directory entries) = some a) ∨
        ∃ name node rest, (name, node) ∈ entries ∧
          loc = name :: rest ∧ (rest, a) ∈ node.collect pick := by
  have hPerm := sortOn_perm Prod.fst (collectEntries pick entries)
  rw [collect, List.mem_append, mem_map_toList_iff, List.mem_flatMap]
  apply or_congr_right
  constructor
  · rintro ⟨⟨name, below⟩, hMem, hFound⟩
    have hEntry := hPerm.subset hMem
    rw [collectEntries_eq_map] at hEntry
    rcases List.mem_map.mp hEntry with ⟨⟨other, node⟩, hNode, hEq⟩
    rcases Prod.mk.inj hEq with ⟨rfl, rfl⟩
    rcases List.mem_map.mp hFound with ⟨⟨rest, b⟩, hRest, hEq⟩
    rcases Prod.mk.inj hEq with ⟨rfl, rfl⟩
    exact ⟨other, node, rest, hNode, rfl, hRest⟩
  · rintro ⟨name, node, rest, hNode, rfl, hRest⟩
    refine ⟨(name, node.collect pick), hPerm.symm.subset ?_, ?_⟩
    · rw [collectEntries_eq_map]
      exact List.mem_map_of_mem hNode
    · exact List.mem_map_of_mem hRest

/- Everything that is there is picked from. -/
theorem mem_collect_iff (h : node.IsProper) :
    (loc, a) ∈ node.collect pick ↔
      ∃ below, node.at? loc = some below ∧ pick below = some a := by
  induction node using Node.induct generalizing loc with
  | file content =>
      rw [collect, mem_map_toList_iff]
      cases loc <;> simp [at?]
  | link target =>
      rw [collect, mem_map_toList_iff]
      cases loc <;> simp [at?]
  | directory entries ih =>
      rcases isProper_directory_iff.mp h with
        ⟨⟨hNodup, -⟩, hChildren⟩
      rw [mem_collect_directory_iff]
      cases loc with
      | nil => simp [at?]
      | cons name rest =>
          constructor
          · rintro (⟨hNil, -⟩ | ⟨other, node, below, hNode, hLoc, hFound⟩)
            · cases hNil
            · rcases List.cons.inj hLoc with ⟨rfl, rfl⟩
              have hGet := (Keyed.get?_eq_some_iff hNodup).mpr hNode
              simpa [at?, hGet] using
                (ih _ hNode (hChildren _ _ hGet)).mp hFound
          · rintro ⟨below, hAt, hPick⟩
            cases hGet : Keyed.get? name entries with
            | none => simp [at?, hGet] at hAt
            | some node =>
                have hNode := (Keyed.get?_eq_some_iff hNodup).mp hGet
                refine Or.inr ⟨name, node, rest, hNode, rfl,
                  (ih _ hNode (hChildren _ _ hGet)).mpr ⟨below, ?_, hPick⟩⟩
                simpa [at?, hGet] using hAt

end Collect

------------------------------------------------------------
-- Their Order
------------------------------------------------------------

section Order

variable {α : Type} {node other : Node}

/- What is found, in the ascending order of its locations. -/
def Ascending (found : List (Location × α)) : Prop :=
  found.Pairwise (fun a b => a.1 < b.1)

theorem ascending_map_toList (found : Option α) :
    Ascending (found.toList.map (fun a => (([] : Location), a))) := by
  cases found <;> simp [Ascending]

/- What is picked comes in the ascending order of its locations. -/
theorem ascending_collect
    (pick : Node → Option α)
    (h : node.IsProper) :
    Ascending (node.collect pick) := by
  induction node using Node.induct with
  | file content => exact ascending_map_toList _
  | link target => exact ascending_map_toList _
  | directory entries ih =>
      rcases isProper_directory_iff.mp h with
        ⟨⟨hNodup, -⟩, hChildren⟩
      have hKeys :
          (Keyed.keys (collectEntries pick entries)).Nodup := by
        rw [collectEntries_eq_map]
        simpa [Keyed.keys, Function.comp_def] using hNodup
      rw [Ascending, collect, List.pairwise_append,
        List.pairwise_flatMap]
      refine ⟨ascending_map_toList _, ⟨?_, ?_⟩, ?_⟩
      · rintro ⟨name, below⟩ hMem
        have hEntry := (sortOn_perm _ _).subset hMem
        rw [collectEntries_eq_map] at hEntry
        rcases List.mem_map.mp hEntry with ⟨⟨other, node⟩, hNode, hEq⟩
        rcases Prod.mk.inj hEq with ⟨rfl, rfl⟩
        have hGet := (Keyed.get?_eq_some_iff hNodup).mpr hNode
        rw [List.pairwise_map]
        refine (ih _ hNode (hChildren _ _ hGet)).imp fun hLess => ?_
        exact List.cons_lt_cons_iff.mpr (Or.inr ⟨rfl, hLess⟩)
      · refine (pairwise_sortOn_of_nodup hKeys).imp ?_
        rintro ⟨name, below⟩ ⟨other, others⟩ hLess
        intro found hFound later hLater
        rcases List.mem_map.mp hFound with ⟨⟨rest, a⟩, -, rfl⟩
        rcases List.mem_map.mp hLater with ⟨⟨tail, b⟩, -, rfl⟩
        exact List.cons_lt_cons_iff.mpr (Or.inl hLess)
      · -- The directory itself comes before everything in it.
        intro found hFound later hLater
        rcases List.mem_map.mp hFound with ⟨a, -, rfl⟩
        rcases List.mem_flatMap.mp hLater with ⟨⟨name, below⟩, -, hBelow⟩
        rcases List.mem_map.mp hBelow with ⟨⟨rest, b⟩, -, rfl⟩
        exact List.nil_lt_cons _ _

/- What is in ascending order is determined by what it is. -/
theorem Ascending.eq_of_mem_iff
    {found others : List (Location × α)}
    (h : Ascending found)
    (hOthers : Ascending others)
    (hSame : ∀ item, item ∈ found ↔ item ∈ others) :
    found = others := by
  have hIrrefl : Std.Irrefl
      (fun item later : Location × α => item.1 < later.1) :=
    ⟨fun item => List.lt_irrefl item.1⟩
  have hAntisymm : Std.Antisymm
      (fun item later : Location × α => item.1 < later.1) :=
    ⟨fun _ _ hLess hGreater => absurd hGreater (List.lt_asymm hLess)⟩
  exact List.Pairwise.eq_of_mem_iff h hOthers hSame

/- The first item that something is wrong with, by its location. -/
theorem Ascending.exists_first_iff
    {found : List (Location × α)}
    {fine wrong : Location × α → Prop}
    (h : Ascending found) :
    (∃ before item after, found = before ++ item :: after ∧
        (∀ earlier ∈ before, fine earlier) ∧ wrong item) ↔
      ∃ item ∈ found, wrong item ∧
        ∀ earlier ∈ found, earlier.1 < item.1 → fine earlier := by
  constructor
  · rintro ⟨before, item, after, rfl, hBefore, hWrong⟩
    refine ⟨item, by simp, hWrong, fun earlier hEarlier hLess => ?_⟩
    rcases List.mem_append.mp hEarlier with hFront | hBack
    · exact hBefore earlier hFront
    · rw [Ascending, List.pairwise_append, List.pairwise_cons] at h
      rcases List.mem_cons.mp hBack with rfl | hAfter
      · exact absurd hLess (List.lt_irrefl _)
      · exact absurd hLess (List.lt_asymm (h.2.1.1 earlier hAfter))
  · rintro ⟨item, hItem, hWrong, hEarlier⟩
    rcases List.append_of_mem hItem with ⟨before, after, rfl⟩
    refine ⟨before, item, after, rfl, fun earlier hMem => ?_, hWrong⟩
    rw [Ascending, List.pairwise_append] at h
    exact hEarlier earlier (by simp [hMem])
      (h.2.2 earlier hMem item (by simp))

end Order

------------------------------------------------------------
-- Entries That Are Picked
------------------------------------------------------------

section Entries

variable {α : Type} {read : Entry → Option α} {node other : Node}
variable {loc : Location} {a : α}

/- What is picked by the entries is what they give. -/
theorem mem_collect_entry_iff (h : node.IsProper) :
    (loc, a) ∈ node.collect (fun below => read below.entry) ↔
      (node.entryAt? loc).bind read = some a := by
  rw [mem_collect_iff h, entryAt?, Option.bind_map,
    Option.bind_eq_some_iff]
  rfl

/- The same entries give the same in the same order. -/
theorem collect_entry_eq
    (h : node.IsProper)
    (hOther : other.IsProper)
    (hSame : ∀ loc a,
      (node.entryAt? loc).bind read = some a ↔
        (other.entryAt? loc).bind read = some a) :
    node.collect (fun below => read below.entry) =
      other.collect (fun below => read below.entry) := by
  refine (ascending_collect _ h).eq_of_mem_iff
    (ascending_collect _ hOther) ?_
  rintro ⟨loc, a⟩
  rw [mem_collect_entry_iff h, mem_collect_entry_iff hOther, hSame]

end Entries

------------------------------------------------------------
-- Directories and Files
------------------------------------------------------------

section Files

variable {node other : Node} {loc : Location}

/- What an entry is gone through as, if it is. -/
def entryKind? : Entry → Option Kind
| .file _ => some .file
| .directory => some .directory
| .link _ => none

theorem visits_eq_collect (node : Node) :
    node.visits =
      node.collect (fun below => entryKind? below.entry) := by
  have hKind : kind? = fun below : Node => entryKind? below.entry := by
    funext below
    cases below <;> rfl
  rw [visits, hKind]

/- All directories and regular files that are there are gone through. -/
theorem mem_visits_iff
    (h : node.IsProper)
    {kind : Kind} :
    (loc, kind) ∈ node.visits ↔
      ∃ entry, node.entryAt? loc = some entry ∧
        entryKind? entry = some kind := by
  rw [visits_eq_collect, mem_collect_entry_iff h,
    Option.bind_eq_some_iff]

theorem ascending_visits (h : node.IsProper) : Ascending node.visits :=
  ascending_collect kind? h

/- The content of a regular file. -/
def content? : Entry → Option ByteArray
| .file content => some content
| _ => none

theorem content?_eq_some_iff
    {entry : Entry}
    {content : ByteArray} :
    content? entry = some content ↔ entry = .file content := by
  cases entry <;> simp [content?]

/- The regular files at and below a node, in order. -/
def files (node : Node) : List (Location × ByteArray) :=
  node.collect (fun below => content? below.entry)

/- What is found are the regular files that are there. -/
theorem mem_files_iff
    (h : node.IsProper)
    {content : ByteArray} :
    (loc, content) ∈ node.files ↔
      node.entryAt? loc = some (.file content) := by
  rw [files, mem_collect_entry_iff h, Option.bind_eq_some_iff]
  simp only [content?_eq_some_iff, exists_eq_right]

/- Files are found in the ascending order of their locations. -/
theorem ascending_files (h : node.IsProper) : Ascending node.files :=
  ascending_collect _ h

/- The files are among what is gone through, in the same order. -/
theorem files_eq_filterMap_visits (h : node.IsProper) :
    node.files = node.visits.filterMap fun visit =>
      ((node.entryAt? visit.1).bind content?).map fun content =>
        (visit.1, content) := by
  refine (ascending_files h).eq_of_mem_iff ?_ ?_
  · refine (ascending_visits h).filterMap _ ?_
    intro visit other hLess file hFile later hLater
    rcases Option.map_eq_some_iff.mp hFile with ⟨content, -, rfl⟩
    rcases Option.map_eq_some_iff.mp hLater with ⟨text, -, rfl⟩
    exact hLess
  · rintro ⟨loc, content⟩
    rw [mem_files_iff h, List.mem_filterMap]
    constructor
    · intro hEntry
      exact ⟨(loc, .file), (mem_visits_iff h).mpr ⟨_, hEntry, rfl⟩,
        by simp [hEntry, content?]⟩
    · rintro ⟨⟨place, kind⟩, -, hFile⟩
      rcases Option.map_eq_some_iff.mp hFile with ⟨found, hFound, hEq⟩
      rcases Prod.mk.inj hEq with ⟨rfl, rfl⟩
      rcases Option.bind_eq_some_iff.mp hFound with
        ⟨entry, hEntry, hContent⟩
      rw [hEntry, content?_eq_some_iff.mp hContent]

/- The same files in the same places are found in the same order. -/
theorem files_eq_of_entries
    (h : node.IsProper)
    (hOther : other.IsProper)
    (hSame : ∀ loc content,
      node.entryAt? loc = some (.file content) ↔
        other.entryAt? loc = some (.file content)) :
    node.files = other.files := by
  refine collect_entry_eq h hOther fun loc content => ?_
  simpa [Option.bind_eq_some_iff, content?_eq_some_iff] using
    hSame loc content

/- The same entries are gone through in the same order. -/
theorem visits_eq_of_entries
    (h : node.IsProper)
    (hOther : other.IsProper)
    (hSame : ∀ loc, node.entryAt? loc = other.entryAt? loc) :
    node.visits = other.visits := by
  rw [visits_eq_collect, visits_eq_collect]
  exact collect_entry_eq h hOther fun loc kind => by rw [hSame]

end Files

end Bindery.Node

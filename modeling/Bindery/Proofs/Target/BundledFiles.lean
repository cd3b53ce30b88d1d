import Bindery.Proofs.Files.Relisting
import Bindery.Proofs.Target.Bundle
import Bindery.Proofs.Text.ByteOrder

/-
  This file says exactly what bundling the support files of a
  target gives: all regular files below a directory that can be
  reached without following links, in the order of the bytes of
  the names on the way to them, or else what is wrong with the
  first of them that cannot be read.  How the system lists
  directories does not matter.

  Key definitions include:
    * `PrecedesInBytes`
    * `FindsDirectory`
    * `FirstHindrance`

  Key theorems include:
    * `precedesInBytes_iff`
    * `bundleRuntime_eq_error_iff`
    * `bundleRuntime_relisted`
    * `bundleRuntime_exact`
-/

namespace Bindery

open FileSystem

------------------------------------------------------------
-- The Order of Locations
------------------------------------------------------------

/-
  A location comes before another one if the first name in
  which they differ does, by its bytes.
-/
def PrecedesInBytes (loc other : Location) : Prop :=
  loc.map Text.bytes < other.map Text.bytes

theorem bytes_injective {first second : String}
    (h : Text.bytes first = Text.bytes second) :
    first = second := by
  refine String.le_antisymm ?_ ?_ <;>
  · rw [← String.not_lt, ← Text.bytes_lt_iff, h]
    exact List.lt_irrefl _

theorem precedesInBytes_iff {loc other : Location} :
    PrecedesInBytes loc other ↔ loc < other := by
  unfold PrecedesInBytes
  induction loc generalizing other with
  | nil => cases other <;> simp
  | cons name rest ih =>
      cases other with
      | nil => simp
      | cons first others =>
          rw [List.map_cons, List.map_cons, List.cons_lt_cons_iff,
            List.cons_lt_cons_iff, Text.bytes_lt_iff, ih]
          refine or_congr_right (and_congr_left' ⟨bytes_injective, ?_⟩)
          rintro rfl
          rfl

------------------------------------------------------------
-- What Is in the Way
------------------------------------------------------------

section Hindrances

variable {fs other : FileSystem} {root : String} {dir : Location}
variable {node : Node} {set : ArtifactSet} {e : GenerationError}

/- A path leads to a directory, maybe by way of links. -/
structure FindsDirectory
    (fs : FileSystem)
    (root : String)
    (dir : Location) : Prop where
  resolves : fs.resolve root = .ok (.present dir)
  directory : fs.entryAt? dir = some .directory

/-
  Something at a location below a directory cannot be read, and
  nothing is in the way before it.
-/
structure FirstHindrance
    (fs : FileSystem)
    (root : String)
    (dir loc : Location)
    (cause : FileError) : Prop where
  hinders : ∃ entry, fs.entryAt? (dir ++ loc) = some entry ∧
    Hinders (Path.joinAll root loc) entry cause
  first : ∀ earlier, PrecedesInBytes earlier loc →
    ∀ entry other, fs.entryAt? (dir ++ earlier) = some entry →
      ¬ Hinders (Path.joinAll root earlier) entry other

theorem FindsNode.findsDirectory (h : FindsNode fs root dir node) :
    FindsDirectory fs root dir :=
  ⟨(resolve_eq_present_iff_leadsTo h.leads.directory).mpr
    ⟨h.check, h.leads⟩, h.leads.directory⟩

theorem FindsDirectory.exists_findsNode
    (h : FindsDirectory fs root dir)
    (hProper : fs.IsProper) :
    ∃ node, FindsNode fs root dir node := by
  rcases entryAt?_eq_directory_iff.mp h.directory with
    ⟨entries, hNode⟩
  rcases (resolve_eq_present_iff_leadsTo h.directory).mp h.resolves with
    ⟨hCheck, hLeads⟩
  exact ⟨_, hCheck, hLeads, hNode, Node.IsProper.at? hProper hNode⟩

/- Links are in nobody's way. -/
theorem Hinders.exists_kind
    {path : String}
    {entry : Entry}
    {cause : FileError}
    (h : Hinders path entry cause) :
    ∃ kind, Node.entryKind? entry = some kind := by
  cases h with
  | refused hLink _ =>
      cases entry with
      | link target => exact absurd rfl (hLink target)
      | file content => exact ⟨_, rfl⟩
      | directory => exact ⟨_, rfl⟩
  | notText _ _ => exact ⟨_, rfl⟩

namespace FindsNode

theorem unique
    {place : Location}
    (h : FindsNode fs root dir node)
    (hOther : FindsDirectory fs root place) :
    dir = place := by
  simpa using h.findsDirectory.resolves.symm.trans hOther.resolves

/- What is in the way is gone through and cannot be read. -/
theorem exists_visit_iff
    (h : FindsNode fs root dir node)
    {loc : Location}
    {cause : FileError} :
    (∃ kind, (loc, kind) ∈ node.visits ∧
        visitOutcome fs root (loc, kind) = .error cause) ↔
      ∃ entry, fs.entryAt? (dir ++ loc) = some entry ∧
        Hinders (Path.joinAll root loc) entry cause := by
  constructor
  · rintro ⟨kind, hVisit, hOutcome⟩
    rcases h.of_mem_visits hVisit with ⟨entry, hEntry, -, hKind, hNames⟩
    exact ⟨entry, hEntry, (visitOutcome_eq_error_iff h.ne_empty h.leads
      hNames hEntry hKind).mp hOutcome⟩
  · rintro ⟨entry, hEntry, hHinders⟩
    rcases hHinders.exists_kind with ⟨kind, hKind⟩
    rw [entryAt?_of_at? h.found] at hEntry
    have hVisit : (loc, kind) ∈ node.visits :=
      (Node.mem_visits_iff h.proper).mpr ⟨entry, hEntry, hKind⟩
    rcases h.of_mem_visits hVisit with ⟨found, hFound, hAt, -, hNames⟩
    obtain rfl := Option.some.inj (hEntry.symm.trans hAt)
    exact ⟨kind, hVisit, (visitOutcome_eq_error_iff h.ne_empty h.leads
      hNames hFound hKind).mpr hHinders⟩

/- What is gone through can be read if nothing is in the way there. -/
theorem isReadable_iff
    (h : FindsNode fs root dir node)
    {visit : Location × Node.Kind}
    (hVisit : visit ∈ node.visits) :
    IsReadable fs root visit ↔
      ∀ entry cause, fs.entryAt? (dir ++ visit.1) = some entry →
        ¬ Hinders (Path.joinAll root visit.1) entry cause := by
  rcases h.of_mem_visits hVisit with ⟨entry, hEntry, -, hKind, hNames⟩
  rw [Bindery.isReadable_iff h.ne_empty h.leads hNames hEntry hKind]
  constructor
  · intro hNone found cause hFound
    obtain rfl := Option.some.inj (hEntry.symm.trans hFound)
    exact hNone cause
  · exact fun hNone cause => hNone entry cause hEntry

/- Everything can be read exactly if nothing is in the way. -/
theorem forall_isReadable_iff_not_hinders
    (h : FindsNode fs root dir node) :
    (∀ visit ∈ node.visits, IsReadable fs root visit) ↔
      ∀ loc entry cause, fs.entryAt? (dir ++ loc) = some entry →
        ¬ Hinders (Path.joinAll root loc) entry cause := by
  constructor
  · intro hAll loc entry cause hEntry hHinders
    rcases h.exists_visit_iff.mpr ⟨entry, hEntry, hHinders⟩ with
      ⟨kind, hVisit, -⟩
    exact (h.isReadable_iff hVisit).mp (hAll _ hVisit) entry cause
      hEntry hHinders
  · intro hNone visit hVisit
    exact (h.isReadable_iff hVisit).mpr (hNone visit.1)

/- The first thing in the way decides how bundling fails. -/
theorem bundleFrom_eq_error_iff
    (h : FindsNode fs root dir node)
    {artifacts : ArtifactSet} :
    (bundleFrom fs root node.visits artifacts).outcome = .error e ↔
      ∃ loc cause, FirstHindrance fs root dir loc cause ∧
        e = .unreadable (Path.joinAll root loc) (.file cause) := by
  rw [Bindery.bundleFrom_eq_error_iff,
    (Node.ascending_visits h.proper).exists_first_iff]
  constructor
  · rintro ⟨⟨loc, kind⟩, hVisit, ⟨cause, hOutcome, rfl⟩, hEarlier⟩
    refine ⟨loc, cause, ⟨h.exists_visit_iff.mp
      ⟨kind, hVisit, hOutcome⟩, ?_⟩, rfl⟩
    intro earlier hBefore entry other hEntry hHinders
    rcases h.exists_visit_iff.mpr ⟨entry, hEntry, hHinders⟩ with
      ⟨before, hMem, -⟩
    exact (h.isReadable_iff hMem).mp (hEarlier _ hMem
      (precedesInBytes_iff.mp hBefore)) entry other hEntry hHinders
  · rintro ⟨loc, cause, hFirst, rfl⟩
    rcases h.exists_visit_iff.mpr hFirst.hinders with
      ⟨kind, hVisit, hOutcome⟩
    refine ⟨(loc, kind), hVisit, ⟨cause, hOutcome, rfl⟩, ?_⟩
    intro earlier hMem hLess
    exact (h.isReadable_iff hMem).mpr
      (hFirst.first earlier.1 (precedesInBytes_iff.mpr hLess))

end FindsNode

------------------------------------------------------------
-- Failure
------------------------------------------------------------

/- Bundling fails at the directory itself or at the first hindrance. -/
theorem bundleRuntime_eq_error_iff (hProper : fs.IsProper) :
    (bundleRuntime fs root).outcome = .error e ↔
      (∃ cause, fs.stat root = .error cause ∧
          e = .unreadable root (.file cause)) ∨
        (∃ node, fs.stat root = .ok node ∧ node.isDirectory = false ∧
          e = .unreadable root
            (.other "runtime bundle root is not a directory")) ∨
        ∃ dir loc cause, FindsDirectory fs root dir ∧
          FirstHindrance fs root dir loc cause ∧
          e = .unreadable (Path.joinAll root loc) (.file cause) := by
  constructor
  · intro h
    cases hStat : fs.stat root with
    | error cause =>
        rw [bundleRuntime, hStat] at h
        exact Or.inl ⟨cause, rfl, (Except.error.inj h).symm⟩
    | ok node =>
        rw [bundleRuntime_of_stat hStat] at h
        by_cases hDirectory : node.isDirectory = true
        · rcases exists_findsNode hProper hStat hDirectory with
            ⟨dir, hFinds⟩
          rw [if_pos hDirectory, hFinds.bundleFrom_eq_error_iff] at h
          rcases h with ⟨loc, cause, hFirst, hError⟩
          exact Or.inr (Or.inr ⟨dir, loc, cause,
            hFinds.findsDirectory, hFirst, hError⟩)
        · rw [if_neg hDirectory] at h
          exact Or.inr (Or.inl ⟨node, rfl, by simpa using hDirectory,
            (Except.error.inj h).symm⟩)
  · rintro (⟨cause, hStat, rfl⟩ | ⟨node, hStat, hDirectory, rfl⟩ |
      ⟨dir, loc, cause, hDir, hFirst, rfl⟩)
    · rw [bundleRuntime, hStat]
      rfl
    · rw [bundleRuntime_of_stat hStat, hDirectory]
      rfl
    · rcases hDir.exists_findsNode hProper with ⟨node, hFinds⟩
      rw [bundleRuntime_of_stat hFinds.stat, if_pos hFinds.isDirectory,
        hFinds.bundleFrom_eq_error_iff]
      exact ⟨loc, cause, hFirst, rfl⟩

end Hindrances

------------------------------------------------------------
-- Success
------------------------------------------------------------

section Contents

variable {fs other : FileSystem} {root : String} {dir : Location}
variable {node : Node} {set : ArtifactSet}

/-
  Files found below a directory: all regular files there with
  their texts, in the order of their locations.
-/
structure IsListing
    (fs : FileSystem)
    (dir : Location)
    (found : List (Location × String)) : Prop where
  complete : ∀ loc text, (loc, text) ∈ found ↔
    fs.entryAt? (dir ++ loc) = some (.file text.toUTF8)
  ordered : found.Pairwise fun file later =>
    PrecedesInBytes file.1 later.1

theorem IsListing.unique
    {found others : List (Location × String)}
    (h : IsListing fs dir found)
    (hOthers : IsListing fs dir others) :
    found = others := by
  have hAscending : ∀ {found : List (Location × String)},
      IsListing fs dir found → Node.Ascending found :=
    fun h => h.ordered.imp precedesInBytes_iff.mp
  refine (hAscending h).eq_of_mem_iff (hAscending hOthers) ?_
  rintro ⟨loc, text⟩
  rw [h.complete, hOthers.complete]

/- The texts that are gone through are what is found. -/
theorem FindsNode.isListing
    (h : FindsNode fs root dir node)
    (hTexts : ∀ file ∈ node.files, IsText file.2) :
    IsListing fs dir
      (node.files.map fun file => (file.1, asText file.2)) where
  complete := by
    intro loc text
    rw [List.mem_map, entryAt?_of_at? h.found,
      ← Node.mem_files_iff h.proper]
    constructor
    · rintro ⟨⟨place, content⟩, hFile, hEq⟩
      rcases Prod.mk.inj hEq with ⟨rfl, rfl⟩
      rw [toUTF8_asText (hTexts _ hFile)]
      exact hFile
    · intro hFile
      exact ⟨_, hFile, by rw [asText_of_textOf (textOf_toUTF8 text)]⟩
  ordered := by
    rw [List.pairwise_map]
    exact (Node.ascending_files h.proper).imp precedesInBytes_iff.mpr

/-
  Bundling succeeds exactly if nothing is in the way, and gives
  the files that are found.
-/
theorem bundleRuntime_eq_ok_iff_isListing (hProper : fs.IsProper) :
    (bundleRuntime fs root).outcome = .ok set ↔
      ∃ dir, FindsDirectory fs root dir ∧
        (∀ loc entry cause, fs.entryAt? (dir ++ loc) = some entry →
          ¬ Hinders (Path.joinAll root loc) entry cause) ∧
        ∃ found, IsListing fs dir found ∧
          set.files = found.map fun file =>
            (bundlePath file.1, file.2) := by
  rw [bundleRuntime_eq_ok_iff_isBundle hProper]
  constructor
  · rintro ⟨node, hStat, hBundle, hLimits⟩
    rcases exists_findsNode hProper hStat hBundle.directory with
      ⟨dir, hFinds⟩
    refine ⟨dir, hFinds.findsDirectory,
      hFinds.forall_isReadable_iff_not_hinders.mp
        (hFinds.forall_isReadable_iff.mpr ⟨hLimits, hBundle.texts⟩),
      _, hFinds.isListing hBundle.texts, ?_⟩
    rw [hBundle.files, List.map_map]
    rfl
  · rintro ⟨dir, hDir, hNone, found, hFound, hFiles⟩
    rcases hDir.exists_findsNode hProper with ⟨node, hFinds⟩
    rcases hFinds.forall_isReadable_iff.mp
      (hFinds.forall_isReadable_iff_not_hinders.mpr hNone) with
      ⟨hLimits, hTexts⟩
    refine ⟨node, hFinds.stat,
      ⟨hFinds.isDirectory, hFinds.proper, hTexts, ?_⟩, hLimits⟩
    rw [hFiles, hFound.unique (hFinds.isListing hTexts), List.map_map]
    rfl

------------------------------------------------------------
-- Listings
------------------------------------------------------------

/- What is gone through is bundled alike if it is read alike. -/
theorem bundleFrom_congr
    {visits : List (Location × Node.Kind)}
    (h : ∀ path kind, readVisit other path kind = readVisit fs path kind)
    (artifacts : ArtifactSet) :
    bundleFrom other root visits artifacts =
      bundleFrom fs root visits artifacts := by
  induction visits generalizing artifacts with
  | nil => rfl
  | cons visit rest ih => simp only [bundleFrom, h, ih]

theorem readVisit_relisted
    (hProper : fs.IsProper)
    (hOther : other.IsProper)
    (hSame : fs.SameEntries other)
    (path : String)
    (kind : Node.Kind) :
    readVisit other path kind = readVisit fs path kind := by
  cases kind with
  | file => rw [readVisit, readVisit, hSame.readText]
  | directory =>
      rw [readVisit, readVisit]
      rcases hSame.listDirectory hProper hOther path with
        ⟨cause, hList, hOtherList⟩ |
        ⟨names, others, hList, hOtherList, -⟩
      · rw [hList, hOtherList]
      · rw [hList, hOtherList]
        rfl

/- How directories are listed does not matter for a bundle. -/
theorem bundleRuntime_relisted
    (root : String)
    (hProper : fs.IsProper)
    (hOther : other.IsProper)
    (hSame : fs.SameEntries other) :
    bundleRuntime other root = bundleRuntime fs root := by
  rcases hSame.stat_cases root with
    ⟨cause, hStat, hOtherStat⟩ |
    ⟨dir, node, found, hStat, hOtherStat, hNode, hFound, hEntry⟩
  · rw [bundleRuntime, bundleRuntime, hStat, hOtherStat]
  · have hDirectory : found.isDirectory = node.isDirectory := by
      cases found <;> cases node <;>
        simp_all [Node.entry, Node.isDirectory]
    have hVisits : found.visits = node.visits :=
      Node.visits_eq_of_entries
        (Node.IsProper.at? hOther hFound)
        (Node.IsProper.at? hProper hNode) fun loc => by
          rw [← entryAt?_of_at? hFound, ← entryAt?_of_at? hNode,
            hSame.entries]
    rw [bundleRuntime_of_stat hStat, bundleRuntime_of_stat hOtherStat,
      hDirectory, hVisits,
      bundleFrom_congr (readVisit_relisted hProper hOther hSame)]

/-
  Bundling succeeds exactly if the path leads to a directory and
  nothing keeps a directory or a regular file below it, reached
  without following links, from being read: each of them has a
  path that the system accepts, and each file holds a text.
  Then the output has each of these files once, under the names
  on the way to it, in the order of the bytes of these names.

  Otherwise the error names the directory, or the first of what
  cannot be read in the same order.  How the system lists
  directories does not matter.
-/
theorem bundleRuntime_exact
    (fs other : FileSystem)
    (root : String)
    (hProper : fs.IsProper)
    (hOther : other.IsProper)
    (hSame : fs.SameEntries other) :
    (∀ set, (bundleRuntime fs root).outcome = .ok set ↔
      ∃ dir, FindsDirectory fs root dir ∧
        (∀ loc entry cause, fs.entryAt? (dir ++ loc) = some entry →
          ¬ Hinders (Path.joinAll root loc) entry cause) ∧
        ∃ found, IsListing fs dir found ∧
          set.files = found.map fun file =>
            (bundlePath file.1, file.2)) ∧
    (∀ e, (bundleRuntime fs root).outcome = .error e ↔
      (∃ cause, fs.stat root = .error cause ∧
          e = .unreadable root (.file cause)) ∨
        (∃ node, fs.stat root = .ok node ∧ node.isDirectory = false ∧
          e = .unreadable root
            (.other "runtime bundle root is not a directory")) ∨
        ∃ dir loc cause, FindsDirectory fs root dir ∧
          FirstHindrance fs root dir loc cause ∧
          e = .unreadable (Path.joinAll root loc) (.file cause)) ∧
    bundleRuntime other root = bundleRuntime fs root :=
  ⟨fun _ => bundleRuntime_eq_ok_iff_isListing hProper,
    fun _ => bundleRuntime_eq_error_iff hProper,
    bundleRuntime_relisted root hProper hOther hSame⟩

end Contents

/-
  A directory listed in two orders: names on the way to a file
  are compared one by one, so `a/x` comes before `a.b`.
-/
theorem bundleRuntime_exact_relisted :
    let entries :=
      [("a.b", Node.file "1".toUTF8),
        ("a", .directory [("x", .file "2".toUTF8)])]
    let fs : FileSystem := ⟨.directory [("d", .directory entries)], []⟩
    let files := [("rt/a/x", "2"), ("rt/a.b", "1")]
    (bundleRuntime (fs.put ["d"] (.directory entries.reverse))
        "d").outcome = .ok (ArtifactSet.ofList files) ∧
      ∃ dir found, FindsDirectory fs "d" dir ∧
        IsListing fs dir found ∧
        files = found.map fun file => (bundlePath file.1, file.2) := by
  intro entries fs files
  have hProper : fs.IsProper := by decide
  have hDir : fs.at? ["d"] = some (.directory entries) := rfl
  rcases SameEntries.of_perm hProper hDir (List.reverse_perm entries) with
    ⟨hSame, hOther⟩
  rcases bundleRuntime_exact fs _ "d" hProper hOther hSame with
    ⟨hOk, -, hRelisted⟩
  have hOutcome : (bundleRuntime fs "d").outcome =
      .ok (ArtifactSet.ofList files) := rfl
  rcases (hOk _).mp hOutcome with
    ⟨dir, hFinds, -, found, hFound, hFiles⟩
  exact ⟨by rw [hRelisted, hOutcome], dir, found, hFinds, hFound, hFiles⟩

------------------------------------------------------------
-- A Path That Is Too Long
------------------------------------------------------------

/- A path to `d` that stays there a number of times. -/
def dottedPath : Nat → String
| 0 => "d"
| count + 1 => Path.join (dottedPath count) "."

theorem dottedPath_spec (count : Nat) :
    dottedPath count ≠ "" ∧
      Path.isAbsolute (dottedPath count) = false ∧
      Path.moves (dottedPath count) = [.enter "d"] ∧
      (dottedPath count).toList.getLast? ≠ some '/' ∧
      '\x00' ∉ (dottedPath count).toList ∧
      Text.byteLength (dottedPath count).toList = 2 * count + 1 := by
  induction count with
  | zero => decide
  | succ count ih =>
      rcases ih with ⟨hNe, hRelative, hMoves, hSlash, hNul, hLength⟩
      have hDot : Path.isAbsolute "." = false := by decide
      have hList : (dottedPath (count + 1)).toList =
          (dottedPath count).toList ++ ['/', '.'] := by
        rcases Path.toList_join hNe hDot with ⟨front, hFront, -⟩ | hJoin
        · simp [hFront] at hSlash
        · exact hJoin
      refine ⟨Path.join_ne_empty hNe hDot,
        (Path.isAbsolute_join hNe hDot).trans hRelative, ?_, ?_, ?_, ?_⟩
      · rw [dottedPath, Path.moves_join hNe hDot, hMoves]
        decide
      · simp [hList]
      · simp [hList, hNul]
      · rw [hList, Text.byteLength_append, hLength]
        have hTwo : Text.byteLength ['/', '.'] = 2 := by decide
        omega

/- A directory `d` with nothing but a text in it. -/
def singleFile : FileSystem :=
  ⟨.directory [("d", .directory [("x", .file "y".toUTF8)])], []⟩

theorem isProper_singleFile : singleFile.IsProper := by
  decide

theorem findsNode_dottedPath
    {count : Nat}
    (h : 2 * count + 1 ≤ maxPathLength) :
    FindsNode singleFile (dottedPath count) ["d"]
      (.directory [("x", .file "y".toUTF8)]) := by
  rcases dottedPath_spec count with
    ⟨hNe, hRelative, hMoves, -, hNul, hLength⟩
  have hNode : singleFile.root.at? ["d"] =
      some (.directory [("x", .file "y".toUTF8)]) := rfl
  refine ⟨checkPath_eq_ok_iff.mpr ⟨hNul, hNe, by omega⟩, ?_, hNode,
    Node.IsProper.at? isProper_singleFile hNode⟩
  rw [LeadsTo, hMoves, startOf, hRelative]
  exact .enter rfl (by decide) rfl (.here rfl)

/- The path of the file is longer than that of the directory. -/
theorem outcome_bundleRuntime_dottedPath
    {count : Nat}
    (hShort : 2 * count + 1 ≤ maxPathLength)
    (hLong : maxPathLength < 2 * count + 3) :
    (bundleRuntime singleFile (dottedPath count)).outcome =
      .error (.unreadable (Path.join (dottedPath count) "x")
        (.file .nameTooLong)) := by
  have hFinds := findsNode_dottedPath hShort
  rcases dottedPath_spec count with ⟨hNe, -, -, hSlash, hNul, hLength⟩
  have hList : (Path.join (dottedPath count) "x").toList =
      (dottedPath count).toList ++ ['/', 'x'] := by
    have hRelative : Path.isAbsolute "x" = false := by decide
    rcases Path.toList_join hNe hRelative with ⟨front, hFront, -⟩ | hJoin
    · simp [hFront] at hSlash
    · exact hJoin
  have hRefused : checkLimits (Path.join (dottedPath count) "x") =
      .error .nameTooLong := by
    apply checkLimits_of_long
    · simp [hList, hNul]
    · have hTwo : Text.byteLength ['/', 'x'] = 2 := by decide
      rw [hList, Text.byteLength_append, hLength, hTwo]
      exact hLong
  have hVisits : (Node.directory [("x", .file "y".toUTF8)]).visits =
      [([], .directory), (["x"], .file)] := rfl
  have hRoot : IsReadable singleFile (dottedPath count)
      ([], .directory) :=
    (isReadable_iff hFinds.ne_empty hFinds.leads (by simp)
      hFinds.leads.directory rfl).mpr (not_hinders_iff.mpr
        ⟨fun _ => ⟨hFinds.check, hFinds.leads.fitsName⟩, by simp⟩)
  rw [bundleRuntime_of_stat hFinds.stat, if_pos hFinds.isDirectory,
    hVisits, bundleFrom_eq_error_iff]
  refine ⟨[([], .directory)], (["x"], .file), [], rfl,
    List.forall_mem_singleton.mpr hRoot, .nameTooLong, ?_, rfl⟩
  exact (visitOutcome_eq_error_iff hFinds.ne_empty hFinds.leads
    (by decide) rfl rfl).mpr (.refused (by simp [Node.entry]) hRefused)

/-
  A path that leads to a directory may be so long that a file
  below it cannot be read, though it holds a text.
-/
theorem bundleRuntime_below_long_path :
    singleFile.IsProper ∧
      FindsDirectory singleFile (dottedPath 2047) ["d"] ∧
      (∀ loc content,
        singleFile.entryAt? (["d"] ++ loc) = some (.file content) →
          IsText content) ∧
      (bundleRuntime singleFile (dottedPath 2047)).outcome =
        .error (.unreadable (Path.join (dottedPath 2047) "x")
          (.file .nameTooLong)) := by
  have hFinds := @findsNode_dottedPath 2047 (by decide)
  refine ⟨isProper_singleFile, hFinds.findsDirectory, ?_,
    outcome_bundleRuntime_dottedPath (by decide) (by decide)⟩
  intro loc content hEntry
  rw [entryAt?_of_at? hFinds.found,
    ← Node.mem_files_iff hFinds.proper] at hEntry
  have hFiles : (Node.directory [("x", .file "y".toUTF8)]).files =
      [(["x"], "y".toUTF8)] := rfl
  rw [hFiles, List.mem_singleton] at hEntry
  obtain rfl := (Prod.mk.inj hEntry).2
  exact ⟨"y", textOf_toUTF8 "y"⟩

end Bindery

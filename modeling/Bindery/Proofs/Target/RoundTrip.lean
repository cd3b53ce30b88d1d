import Bindery.Proofs.Artifact.Missing
import Bindery.Proofs.Artifact.Preservation
import Bindery.Proofs.Target.Bundle

/-
  This file says that writing the bundle of a directory to a new
  output directory and bundling the support files there gives
  the same bundle again.

  Key theorems include:
    * `IsBundle.exists_iff_entryAt?`
    * `IsBundle.congr`
    * `bundleRuntime_roundtrip`
-/

namespace Bindery

open FileSystem

------------------------------------------------------------
-- The Files of a Bundle
------------------------------------------------------------

namespace IsBundle

variable {set : ArtifactSet} {node : Node} {path : String}

theorem exists_of_mem
    (h : IsBundle set node)
    (hPath : path ∈ set.paths) :
    ∃ file ∈ node.files, path = bundlePath file.1 ∧
      Path.names path = runtimeDirectory :: file.1 := by
  rw [ArtifactSet.paths, Keyed.keys, h.files, List.map_map,
    List.mem_map] at hPath
  rcases hPath with ⟨file, hFile, rfl⟩
  exact ⟨file, hFile, rfl,
    names_bundlePath (isName_of_mem_files h.proper hFile)⟩

theorem isOrdinary
    (h : IsBundle set node)
    (hPath : path ∈ set.paths) :
    Path.IsOrdinary path := by
  rcases h.exists_of_mem hPath with ⟨file, hFile, rfl, -⟩
  exact isOrdinary_bundlePath (isName_of_mem_files h.proper hFile)

theorem distinctPlaces (h : IsBundle set node) :
    DistinctPlaces set.files :=
  distinctPlaces_of_isOrdinary fun _ => h.isOrdinary

/- What is bundled is not a directory, so it is not the whole. -/
theorem ne_nil_of_mem
    (h : IsBundle set node)
    {file : Location × ByteArray}
    (hFile : file ∈ node.files) :
    file.1 ≠ [] := by
  intro hNil
  have hEntry := (Node.mem_files_iff h.proper).mp hFile
  have hDirectory := h.directory
  cases node with
  | directory entries => simp [hNil, Node.entry] at hEntry
  | file content => simp [Node.isDirectory] at hDirectory
  | link target => simp [Node.isDirectory] at hDirectory

/- Nothing is below a file, so no path goes on from another one. -/
theorem noneAbove (h : IsBundle set node) : NoneAbove set.paths := by
  intro path hPath other hOther hPrefix
  rcases h.exists_of_mem hPath with ⟨file, hFile, -, hNames⟩
  rcases h.exists_of_mem hOther with ⟨under, hUnder, -, hUnderNames⟩
  rw [hNames, hUnderNames, List.cons_prefix_cons] at hPrefix
  rw [hNames, hUnderNames]
  rcases hPrefix with ⟨-, below, hBelow⟩
  cases below with
  | nil => rw [← hBelow, List.append_nil]
  | cons name rest =>
      have hEntry := (Node.mem_files_iff h.proper).mp hUnder
      rw [← hBelow] at hEntry
      have hDirectory := Node.entryAt?_directory_of_append hEntry
      rw [(Node.mem_files_iff h.proper).mp hFile] at hDirectory
      cases hDirectory

/- Which files are in a bundle. -/
theorem exists_iff_entryAt?
    (h : IsBundle set node)
    {loc : Location}
    {content : ByteArray} :
    (∃ file ∈ set.files,
        runtimeDirectory :: loc = Path.names file.1 ∧
          file.2.toUTF8 = content) ↔
      node.entryAt? loc = some (.file content) := by
  rw [← Node.mem_files_iff h.proper, h.files]
  constructor
  · rintro ⟨_, hMem, hNames, rfl⟩
    rcases List.mem_map.mp hMem with ⟨file, hFile, rfl⟩
    rw [bundledFile, names_bundlePath
      (isName_of_mem_files h.proper hFile)] at hNames
    obtain rfl := (List.cons.inj hNames).2
    rw [bundledFile, toUTF8_asText (h.texts file hFile)]
    exact hFile
  · intro hFile
    refine ⟨bundledFile (loc, content), List.mem_map_of_mem hFile, ?_,
      toUTF8_asText (h.texts _ hFile)⟩
    exact (names_bundlePath (isName_of_mem_files h.proper hFile)).symm

/- A directory with the same files has the same bundle. -/
theorem congr
    {other : Node}
    (h : IsBundle set node)
    (hDirectory : other.isDirectory = true)
    (hProper : other.IsProper)
    (hSame : ∀ loc content,
      other.entryAt? loc = some (.file content) ↔
        ∃ file ∈ set.files,
          runtimeDirectory :: loc = Path.names file.1 ∧
            file.2.toUTF8 = content) :
    IsBundle set other := by
  have hFiles : other.files = node.files :=
    Node.files_eq_of_entries hProper h.proper fun loc content =>
      (hSame loc content).trans h.exists_iff_entryAt?
  exact ⟨hDirectory, hProper, hFiles ▸ h.texts, hFiles ▸ h.files⟩

/- Where the files of a bundle are once they have been written. -/
theorem overlay_eq_file_iff
    (h : IsBundle set node)
    {loc : Location}
    {content : ByteArray} :
    overlay [] set.files (FileSystem.entryAt? bare)
        (runtimeDirectory :: loc) = some (.file content) ↔
      ∃ file ∈ set.files,
        runtimeDirectory :: loc = Path.names file.1 ∧
          file.2.toUTF8 = content :=
  overlay_eq_file_iff_of_distinct h.distinctPlaces
    (by simp [entryAt?_bare])

/- Nothing is there that is not on the way to a file. -/
theorem exists_of_overlay
    (h : IsBundle set node)
    {loc : Location}
    (hSome : overlay [] set.files (FileSystem.entryAt? bare)
      (runtimeDirectory :: loc) ≠ none) :
    ∃ file ∈ node.files, loc <+: file.1 := by
  rcases Bindery.exists_of_overlay (by simp [entryAt?_bare]) hSome with
    ⟨made, hMade, hPlace⟩
  rcases h.exists_of_mem (List.mem_map_of_mem hMade) with
    ⟨file, hFile, -, hNames⟩
  have hPrefix : runtimeDirectory :: loc <+: Path.names made.1 := by
    rcases hPlace with hPlace | ⟨hPlace, -⟩
    · have hEq : runtimeDirectory :: loc = Path.names made.1 := hPlace
      exact hEq ▸ List.prefix_refl _
    · exact hPlace
  rw [hNames, List.cons_prefix_cons] at hPrefix
  exact ⟨file, hFile, hPrefix.2⟩

end IsBundle

------------------------------------------------------------
-- Bundling What Has Been Written
------------------------------------------------------------

section RoundTrip

variable {set : ArtifactSet} {node : Node}
variable {fs : FileSystem} {root source last : String}
variable {dir : Location}

/- The limits hold for all that is on the way to a bundled file. -/
theorem fitsLimits_above
    (hBundle : IsBundle set node)
    (hRoot : root ≠ "")
    (hFits : ∀ path ∈ set.paths,
      Path.FitsLimits (Path.join root path))
    {file : Location × ByteArray}
    (hFile : file ∈ node.files)
    {loc : Location}
    (hLoc : loc <+: file.1) :
    Path.FitsLimits
      (Path.joinAll (Path.join root runtimeDirectory) loc) := by
  have hRuntime : Path.IsName runtimeDirectory := by decide
  have hNames := isName_of_mem_files hBundle.proper hFile
  have hPath : bundlePath file.1 ∈ set.paths := by
    rw [ArtifactSet.paths, Keyed.keys, hBundle.files, List.map_map]
    exact List.mem_map_of_mem hFile
  have hAll := hFits _ hPath
  rw [bundlePath, Path.join_intercalate hRoot hRuntime hNames] at hAll
  rcases hLoc with ⟨rest, hRest⟩
  rw [← hRest] at hNames hAll
  have hInit : ∀ name ∈ loc, Path.IsName name := fun name hName =>
    hNames name (by simp [hName])
  have hSplit : Path.joinAll root (runtimeDirectory :: (loc ++ rest)) =
      Path.joinAll
        (Path.joinAll (Path.join root runtimeDirectory) loc) rest :=
    Path.joinAll_append _ loc rest
  rw [hSplit] at hAll
  exact hAll.of_joinAll
    (Path.joinAll_ne_empty
      (Path.join_ne_empty hRoot hRuntime.isAbsolute) hInit)
    fun name hName => hNames name (by simp [hName])

/- The bundle of a directory below which the files of a set are. -/
theorem bundleRuntime_of_entries
    (hBundle : IsBundle set node)
    (hFiles : set.files ≠ [])
    (hProper : fs.IsProper)
    (hRoot : fs.LeadsTo root dir)
    (hRootNe : root ≠ "")
    (hFits : ∀ path ∈ set.paths,
      Path.FitsLimits (Path.join root path))
    (hEntries : ∀ below, fs.entryAt? (dir ++ below) =
      overlay [] set.files (FileSystem.entryAt? bare) below) :
    (bundleRuntime fs (Path.join root runtimeDirectory)).outcome =
      .ok set := by
  have hRuntime : Path.IsName runtimeDirectory := by decide
  have hBelow : Path.Below root [runtimeDirectory]
      (Path.join root runtimeDirectory) := by
    rw [← hRuntime.names]
    exact Path.below_join hRootNe hRuntime.isAbsolute hRuntime.forward
  have hHere : ∀ loc,
      fs.entryAt? (dir ++ [runtimeDirectory] ++ loc) =
        overlay [] set.files (FileSystem.entryAt? bare)
          (runtimeDirectory :: loc) := by
    intro loc
    rw [List.append_assoc, hEntries, List.singleton_append]
  rcases List.exists_mem_of_ne_nil _ hFiles with ⟨first, hFirst⟩
  rcases hBundle.exists_of_mem (List.mem_map_of_mem hFirst) with
    ⟨file, hFile, -, hNames⟩
  have hDirectory : fs.entryAt? (dir ++ [runtimeDirectory]) =
      some .directory := by
    have hEntry := hBundle.overlay_eq_file_iff.mpr
      ⟨first, hFirst, hNames.symm, rfl⟩
    rw [← hHere] at hEntry
    exact directory_of_append file.1 (hBundle.ne_nil_of_mem hFile)
      (hEntry ▸ Option.some_ne_none _)
  have hLimits : Path.FitsLimits (Path.join root runtimeDirectory) :=
    fitsLimits_above hBundle hRootNe hFits hFile List.nil_prefix
  have hFitsName := (fitsName_join_iff hRootNe
    hRuntime.isAbsolute).mp hLimits.names
  rw [hRuntime.names] at hFitsName
  have hLeads := hRoot.below hBelow hFitsName.2 hDirectory
  rcases entryAt?_eq_directory_iff.mp hDirectory with ⟨entries, hNode⟩
  have hFinds : FindsNode fs (Path.join root runtimeDirectory)
      (dir ++ [runtimeDirectory]) (.directory entries) :=
    ⟨hLimits.check, hLeads, hNode, Node.IsProper.at? hProper hNode⟩
  refine (bundleRuntime_eq_ok_iff_isBundle hProper).mpr
    ⟨_, hFinds.stat, hBundle.congr rfl hFinds.proper ?_, ?_⟩
  · intro loc content
    rw [← entryAt?_of_at? hNode, hHere]
    exact hBundle.overlay_eq_file_iff
  · intro visit hVisit
    rcases hFinds.of_mem_visits hVisit with ⟨entry, hEntry, -⟩
    rw [hHere] at hEntry
    rcases hBundle.exists_of_overlay (hEntry ▸ Option.some_ne_none _)
      with ⟨file, hFile, hPrefix⟩
    exact fitsLimits_above hBundle hRootNe hFits hFile hPrefix

/-
  The bundle of a directory is written to an output directory
  that is missing, whose path is one of names and above which
  there are directories or nothing; and bundling the support
  files there gives the same bundle, with the same paths and
  contents in the same order.
-/
theorem bundleRuntime_roundtrip
    (set : ArtifactSet)
    (root source : String)
    (fs : FileSystem)
    (hProper : fs.IsProper)
    (hHome : fs.entryAt? fs.home = some .directory)
    (hBundle : (bundleRuntime fs source).outcome = .ok set)
    (hFiles : set.files ≠ [])
    (hRoot : Path.IsOrdinaryRoot root)
    (hVacant : fs.IsVacant root)
    (hAbove : ∀ above ∈ Path.ancestors root, above ≠ root →
      (∃ loc, fs.LeadsTo above loc) ∨ fs.IsVacant above)
    (hFits : ∀ path ∈ set.paths,
      Path.FitsLimits (Path.join root path) ∧
        Path.FitsLimits
          (Path.join (set.stagingPlace root fs) path)) :
    ∃ fs', set.writeAll root fs = .ok (set.places root) fs' ∧
      (bundleRuntime fs'
        (Path.join root runtimeDirectory)).outcome = .ok set := by
  rcases (bundleRuntime_eq_ok_iff_isBundle hProper).mp hBundle with
    ⟨node, -, hIs, -⟩
  have hPaths : ∀ path ∈ set.paths, Path.IsOrdinary path :=
    fun _ => hIs.isOrdinary
  have hRootFits := ArtifactSet.fitsLimits_of_paths hRoot.ne_empty
    hFiles hPaths fun path hPath => (hFits path hPath).1
  rcases exists_isMissing hHome hRoot hRootFits hVacant hAbove with
    ⟨grown, dir, last, hCreate, hMissing⟩
  rcases exists_isStaged_of_isMissing hVacant hCreate hMissing hFiles
      hPaths (fun path hPath => (hFits path hPath).2) hIs.noneAbove with
    ⟨name, staged, hStaged⟩
  rcases hMissing.writeAll_of_isStaged hFiles hStaged with
    ⟨fs', hWrite, hLeads, hEntries⟩
  have hAfter : fs'.IsProper := by
    have hFinal := ArtifactSet.isProper_writeAll set root hProper
    rwa [Writing.final_of_ok hWrite] at hFinal
  exact ⟨fs', hWrite, bundleRuntime_of_entries hIs hFiles hAfter hLeads
    hRoot.ne_empty (fun path hPath => (hFits path hPath).1) hEntries⟩

/- Files of two directories below one whose parent is missing. -/
theorem bundleRuntime_roundtrip_nested :
    ∃ fs', (ArtifactSet.ofList
        [("rt/a", "x"), ("rt/b/c", "y")]).writeAll "out/new"
          ⟨.directory [("d", .directory
            [("b", .directory [("c", .file "y".toUTF8)]),
              ("a", .file "x".toUTF8)])], []⟩ =
        .ok ["out/new/rt/a", "out/new/rt/b/c"] fs' ∧
      (bundleRuntime fs' "out/new/rt").outcome =
        .ok (ArtifactSet.ofList [("rt/a", "x"), ("rt/b/c", "y")]) := by
  let fs : FileSystem :=
    ⟨.directory [("d", .directory
      [("b", .directory [("c", .file "y".toUTF8)]),
        ("a", .file "x".toUTF8)])], []⟩
  have hFile : ∀ content, (Node.file content).IsProper := fun _ =>
    Node.isProper_of_ne_directory (by simp [Node.entry])
  have hInner : (Node.directory [("c", .file "y".toUTF8)]).IsProper :=
    Node.isProper_empty.put_entry (hFile _) fun _ => by decide
  have hFirst : (Node.directory
      [("b", .directory [("c", .file "y".toUTF8)])]).IsProper :=
    Node.isProper_empty.put_entry hInner fun _ => by decide
  have hOuter : (Node.directory (Keyed.put "a" (.file "x".toUTF8)
      [("b", .directory [("c", .file "y".toUTF8)])])).IsProper :=
    hFirst.put_entry (hFile _) fun _ => by decide
  have hProper : fs.IsProper :=
    Node.isProper_empty.put_entry hOuter fun _ => by decide
  have hBundle : (bundleRuntime fs "d").outcome =
      .ok (ArtifactSet.ofList [("rt/a", "x"), ("rt/b/c", "y")]) := rfl
  have hOut : fs.resolveParent "out" =
      .ok ([], some (.enter "out")) := rfl
  have hNew : fs.resolveParent "out/new" = .error .notFound := rfl
  have hVacant : fs.IsVacant "out/new" := by
    intro dir name hLies
    have hParent := (resolveParent_eq_enter_iff hLies.fits).mpr
      ⟨by decide, hLies⟩
    rw [hNew] at hParent
    cases hParent
  have hOutVacant : fs.IsVacant "out" := by
    intro dir name hLies
    have hParent := (resolveParent_eq_enter_iff hLies.fits).mpr
      ⟨by decide, hLies⟩
    rw [hOut] at hParent
    cases hParent
    rfl
  have hAbove : ∀ above ∈ Path.ancestors "out/new", above ≠ "out/new" →
      (∃ loc, fs.LeadsTo above loc) ∨ fs.IsVacant above := by
    have hAncestors : Path.ancestors "out/new" =
        ["out/new", "out", ""] := by
      decide
    intro above hMem hNe
    rw [hAncestors] at hMem
    rcases List.mem_cons.mp hMem with rfl | hMem
    · exact absurd rfl hNe
    rcases List.mem_cons.mp hMem with rfl | hMem
    · exact Or.inr hOutVacant
    · obtain rfl := List.mem_singleton.mp hMem
      exact Or.inl ⟨[], .here rfl⟩
  exact bundleRuntime_roundtrip _ "out/new" "d" fs hProper rfl hBundle
    (by decide) ⟨"out/new", by decide, Or.inl rfl⟩ hVacant hAbove
    (by decide +kernel)

end RoundTrip

end Bindery

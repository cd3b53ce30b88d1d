import Bindery.Proofs.Artifact.Aftermath
import Bindery.Proofs.Artifact.Agreement
import Bindery.Proofs.Artifact.LinkTargets
import Bindery.Proofs.Artifact.Rewriting

/-
  This file says that writing a set of files again changes
  nothing.  What the first run wrote is never in the way of the
  second one: the second run draws a staging name that is no
  longer than the first, and moves each file onto itself.

  Key theorems include:
    * `checkPath_of_replaced`
    * `HasWritten.takenNames_subset`
    * `HasWritten.isStaged_again`
    * `HasWritten.writeAll_again`
    * `ArtifactSet.writeAll_idempotent`
-/

namespace Bindery

open FileSystem

------------------------------------------------------------
-- Paths with Another Staging Name
------------------------------------------------------------

/- A path in which a part has been replaced by a shorter one. -/
theorem checkPath_of_replaced
    {path other : String}
    {front old new back : List Char}
    (hPath : path.toList = front ++ old ++ back)
    (hOther : other.toList = front ++ new ++ back)
    (hNe : other ≠ "")
    (hNul : '\x00' ∉ new)
    (hLength : Text.byteLength new ≤ Text.byteLength old)
    (h : checkPath path = .ok ()) :
    checkPath other = .ok () := by
  rcases checkPath_eq_ok_iff.mp h with ⟨hNoNul, -, hFits⟩
  rw [hPath] at hNoNul hFits
  simp only [List.mem_append, not_or] at hNoNul
  refine checkPath_eq_ok_iff.mpr ⟨?_, hNe, ?_⟩
  · simp only [hOther, List.mem_append, not_or]
    exact ⟨⟨hNoNul.1.1, hNul⟩, hNoNul.2⟩
  · rw [Text.byteLength_append, Text.byteLength_append] at hFits
    rw [hOther, Text.byteLength_append, Text.byteLength_append]
    omega

section StagingPaths

variable {parent path : String} {m n : Nat}

/- A staging directory can also be made under an earlier name. -/
theorem checkPath_join_stagingName
    (hParent : parent ≠ "")
    (hLe : m ≤ n)
    (h : checkPath (Path.join parent (stagingName n)) = .ok ()) :
    checkPath (Path.join parent (stagingName m)) = .ok () := by
  rcases Path.exists_stem hParent with ⟨stem, -, hJoin⟩
  have hName : ∀ k, (Path.join parent (stagingName k)).toList =
      stem ++ ['/'] ++ (stagingName k).toList ++ [] := by
    intro k
    simp [hJoin _ (isName_stagingName k).isAbsolute]
  exact checkPath_of_replaced (hName n) (hName m)
    (Path.join_ne_empty hParent (isName_stagingName m).isAbsolute)
    (nul_not_mem_stagingName m) (byteLength_stagingName_mono hLe) h

/- So can the files in it. -/
theorem checkPath_join_staging
    (hParent : parent ≠ "")
    (hRelative : Path.isAbsolute path = false)
    (hLe : m ≤ n)
    (h : checkPath (Path.join (Path.join parent (stagingName n)) path) =
      .ok ()) :
    checkPath (Path.join (Path.join parent (stagingName m)) path) =
      .ok () := by
  rcases Path.exists_stem hParent with ⟨stem, -, hJoin⟩
  have hPlace : ∀ k,
      (Path.join (Path.join parent (stagingName k)) path).toList =
        stem ++ ['/'] ++ (stagingName k).toList ++
          '/' :: path.toList := by
    intro k
    have hIsName := isName_stagingName k
    have hSlash := hIsName.endsInSlash_join hParent
    rcases Path.toList_join
        (Path.join_ne_empty hParent hIsName.isAbsolute) hRelative with
      ⟨front, hFront, -⟩ | hLong
    · simp [Path.endsInSlash, hFront] at hSlash
    · simp [hLong, hJoin _ hIsName.isAbsolute]
  exact checkPath_of_replaced (hPlace n) (hPlace m)
    (Path.join_ne_empty
      (Path.join_ne_empty hParent (isName_stagingName m).isAbsolute)
      hRelative)
    (nul_not_mem_stagingName m) (byteLength_stagingName_mono hLe) h

/- What can be staged can be staged under an earlier name. -/
theorem ArtifactSet.IsStageable.of_le
    {set : ArtifactSet}
    (h : set.IsStageable (Path.join parent (stagingName n)))
    (hParent : parent ≠ "")
    (hInside : ∀ path ∈ set.paths, Path.StaysInside path)
    (hLe : m ≤ n) :
    set.IsStageable (Path.join parent (stagingName m)) := by
  refine ⟨h.ends, h.names, fun path hPath => ?_, h.apart⟩
  exact checkPath_join_staging hParent (hInside path hPath).relative hLe
    (h.check path hPath)

end StagingPaths

------------------------------------------------------------
-- Names That Are Taken in the End
------------------------------------------------------------

namespace HasWritten

variable {set : ArtifactSet} {root name : String}
variable {fs grown fs' : FileSystem} {base : Location}

/- A name that is new beside the staging directory is mentioned. -/
theorem mem_mentioned_of_new
    (h : HasWritten set root fs grown base name fs')
    {other : String}
    (hOld : grown.entryAt? (base ++ [other]) = none)
    (hNew : fs'.entryAt? (base ++ [other]) ≠ none) :
    other ∈ set.mentioned root := by
  rw [h.entries] at hNew
  split at hNew
  · exact absurd rfl hNew
  rcases exists_of_overlay hOld hNew with ⟨file, hFile, hPlace⟩
  have hPrefix : base ++ [other] <+:
      destination fs.home root ++ Path.names file.1 := by
    rcases hPlace with hEq | ⟨hPrefix, -⟩
    · exact hEq ▸ List.prefix_refl _
    · exact hPrefix
  rcases (onWay_destination fs.home root).append (Path.names file.1) _
      hPrefix with
    hStart | ⟨last, hLast, hEnds⟩
  · -- the way starts at a directory, so nothing is new above it
    have hNone := entryAt?_of_isPrefix_of_none hStart hOld
    simp [h.directory_startOf] at hNone
  · obtain rfl : other = last := by simpa using hEnds
    exact ArtifactSet.names_append_subset
      (List.mem_map_of_mem hFile) hLast

/- No more names are taken in the end than when staging began. -/
theorem takenNames_subset
    (h : HasWritten set root fs grown base name fs')
    (hTargets : fs'.linkNames ⊆ grown.linkNames) :
    takenNames fs' (stagingParent root) ++ set.mentioned root ⊆
      takenNames grown (stagingParent root) ++ set.mentioned root := by
  intro other hOther
  rw [List.mem_append, mem_takenNames_iff h.isStaging.parentCheck
    h.parentLeads] at hOther
  rw [List.mem_append, mem_takenNames_iff h.isStaging.parentCheck
    h.isStaging.parentLeads]
  rcases hOther with (hNew | hLink) | hMentioned
  · by_cases hOld : grown.entryAt? (base ++ [other]) = none
    · exact Or.inr (h.mem_mentioned_of_new hOld hNew)
    · exact Or.inl (Or.inl hOld)
  · exact Or.inl (Or.inr (hTargets hLink))
  · exact Or.inr hMentioned

------------------------------------------------------------
-- Writing Again
------------------------------------------------------------

/- Each file of the set is where it is to be written again. -/
theorem isInPlace
    (h : HasWritten set root fs grown base name fs')
    (hDistinct : DistinctPlaces set.files)
    (hLength : ∀ path ∈ set.paths,
      Text.byteLength (Path.join root path).toList ≤ maxPathLength)
    {file : String × String}
    (hFile : file ∈ set.files) :
    IsInPlace fs' root (destination fs.home root) file := by
  rcases h.staged with ⟨staged, hStaged⟩
  rcases hStaged.of_mem hFile with ⟨hEnds, hFits, hCheck⟩
  have hPath := List.mem_map_of_mem (f := Prod.fst) hFile
  exact ⟨hEnds, hFits,
    checkPath_join h.rootCheck h.staging_ne_empty
      (h.inside file.1 hPath).relative hCheck (hLength file.1 hPath),
    h.entryAt?_file hDistinct hFile⟩

/- So nothing is in the way of the second run. -/
theorem checkPaths_again
    (h : HasWritten set root fs grown base name fs')
    (hInPlace : ∀ file ∈ set.files,
      IsInPlace fs' root (destination fs.home root) file) :
    checkPaths fs' root set.paths = .ok () := by
  refine checkPaths_eq_ok_iff.mpr fun path hPath => ?_
  rcases List.mem_map.mp hPath with ⟨file, hFile, rfl⟩
  have hInside := h.inside file.1 hPath
  have hHere := hInPlace file hFile
  exact ⟨hInside, (checkDestination_eq_ok_iff h.rooted
    (fun below => h.noLinks _) (ne_empty_of_checkPath h.rootCheck)
    hInside hHere.fits hHere.check).mpr hHere.isWritable.free⟩

/- The second run makes a staging directory and fills it. -/
theorem isStaged_again
    (h : HasWritten set root fs grown base name fs')
    (hTargets : fs'.linkNames ⊆ grown.linkNames)
    (hChecks : checkPaths fs' root set.paths = .ok ()) :
    ∃ again staged, IsStaged set root fs' fs' base again staged := by
  have hParentNe := h.isStaging.parent_ne_empty
  have hCreate := createDirectories_eq_ok_of_leadsTo
    h.isStaging.parentCheck h.parentLeads
  rcases exists_le_stagingName (h.takenNames_subset hTargets) with
    ⟨m, n, hAgain, hName, hLe⟩
  rw [← h.name_eq] at hName
  subst hName
  have hFits : FitsName (stagingName m) :=
    Nat.le_trans (byteLength_stagingName_mono hLe) h.isStaging.fits
  have hStaging := hasStaging_of_leadsTo hChecks hCreate
    h.isStaging.parentCheck h.parentLeads hAgain.symm
    (checkPath_join_stagingName hParentNe hLe h.isStaging.check) hFits
  rcases h.staged with ⟨staged, hStaged⟩
  exact ⟨_, hStaging.exists_isStaged_of_isStageable
    (hStaged.isStageable.of_le hParentNe h.inside hLe)⟩

/- A set that has been written is written again without a change. -/
theorem writeAll_again
    (h : HasWritten set root fs grown base name fs')
    (hTargets : fs'.linkNames ⊆ grown.linkNames)
    (hFiles : set.files ≠ [])
    (hDistinct : DistinctPlaces set.files)
    (hLength : ∀ path ∈ set.paths,
      Text.byteLength (Path.join root path).toList ≤ maxPathLength) :
    set.writeAll root fs' = .ok (set.places root) fs' := by
  have hInPlace : ∀ file ∈ set.files,
      IsInPlace fs' root (destination fs.home root) file :=
    fun _ => h.isInPlace hDistinct hLength
  rcases h.isStaged_again hTargets (h.checkPaths_again hInPlace) with
    ⟨again, staged, hStaged⟩
  refine hStaged.writeAll_inPlace hFiles hDistinct h.rootCheck h.rooted
    (fun below => h.noLinks _) (fun path hPath => ?_) hInPlace
  have hApart := hStaged.not_prefix_place hPath
  rwa [h.home] at hApart

end HasWritten

namespace ArtifactSet

/-
  Without links, a set of files whose paths have different
  places is written a second time with the same answer and
  without a change to the file system.
-/
theorem writeAll_idempotent
    (set : ArtifactSet)
    (root : String)
    (fs fs' : FileSystem)
    (written : List String)
    (hLinks : NoLinks fs)
    (hPlain : ∀ path ∈ set.paths, ∀ other ∈ set.paths,
      Path.plain path = Path.plain other → path = other)
    (hLength : ∀ path ∈ set.paths,
      Text.byteLength (Path.join root path).toList ≤ maxPathLength)
    (h : set.writeAll root fs = .ok written fs') :
    set.writeAll root fs' = .ok written fs' := by
  by_cases hFiles : set.files = []
  · rw [writeAll_of_files_eq_nil hFiles] at h ⊢
    rcases EStateM.Result.ok.inj h with ⟨rfl, rfl⟩
    rfl
  rcases exists_hasStaging_of_ok hFiles h with
    ⟨grown, base, name, published, hStaging, hPublish, rfl, rfl⟩
  have hDistinct := distinctPlaces_of_plain hStaging.inside hPlain
  exact (hStaging.hasWritten hLinks hFiles hDistinct
    hPublish).writeAll_again (hStaging.linkNames_subset hPublish) hFiles
      hDistinct hLength

/- Files with odd paths that are written where nothing was. -/
theorem writeAll_idempotent_bare :
    ∃ fs', (ofList [("a//b", "x"), ("./c", "y")]).writeAll "gen/out"
          bare = .ok ["gen/out/a//b", "gen/out/./c"] fs' ∧
      fs'.entryAt? ["gen", "out", "a", "b"] =
        some (.file "x".toUTF8) ∧
      (ofList [("a//b", "x"), ("./c", "y")]).writeAll "gen/out" fs' =
        .ok ["gen/out/a//b", "gen/out/./c"] fs' := by
  have hEnd : (match (ofList [("a//b", "x"), ("./c", "y")]).writeAll
      "gen/out" bare with
    | .ok written fs' =>
        (written, fs'.entryAt? ["gen", "out", "a", "b"])
    | .error _ _ => ([], none)) =
      (["gen/out/a//b", "gen/out/./c"], some (.file "x".toUTF8)) := by
    decide +kernel
  cases hWrite : (ofList [("a//b", "x"), ("./c", "y")]).writeAll
      "gen/out" bare with
  | error e fs' => simp [hWrite] at hEnd
  | ok written fs' =>
      simp only [hWrite, Prod.mk.injEq] at hEnd
      rcases hEnd with ⟨rfl, hFile⟩
      exact ⟨fs', rfl, hFile, writeAll_idempotent _ "gen/out" bare fs' _
        noLinks_bare (by decide +kernel) (by decide +kernel) hWrite⟩

end ArtifactSet

end Bindery

import Bindery.Proofs.Artifact.Feasibility

/-
  This file says what a set of files that has been written
  leaves behind: its files, the directories above them, and
  everything else as it was.

  Key theorems include:
    * `ArtifactSet.readText_place`
    * `ArtifactSet.writeAll_result`
    * `ArtifactSet.writeAll_bare_succeeds`
-/

namespace Bindery

open FileSystem
open Bindery.Path (Step EndsIn Component)

namespace ArtifactSet

variable {set : ArtifactSet} {root : String} {fs fs' : FileSystem}
variable {written : List String}

------------------------------------------------------------
-- The Files of a Set
------------------------------------------------------------

/- Writing a set leaves the working directory where it is. -/
theorem home_writeAll
    (hLinks : NoLinks fs)
    (hFiles : set.files ≠ [])
    (h : set.writeAll root fs = .ok written fs') :
    fs'.home = fs.home := by
  rcases exists_hasStaging_of_ok hFiles h with
    ⟨grown, base, name, published, hStaging, hPublish, -, rfl⟩
  have hHome := (hStaging.publish_spares hLinks).spares.home
  rw [Writing.final_of_ok hPublish, hStaging.home_withStaging] at hHome
  rw [home_removeAt, hHome]

/- What is read where a file has been written, if it can be named. -/
theorem readText_place
    (hLinks : NoLinks fs)
    (hForward : Path.Forward root)
    (hFiles : set.files ≠ [])
    (hDistinct : DistinctPlaces set.files)
    (h : set.writeAll root fs = .ok written fs')
    {file : String × String}
    (hFile : file ∈ set.files)
    (hLength : Text.byteLength (Path.join root file.1).toList ≤
      maxPathLength) :
    fs'.readText (Path.join root file.1) = .ok file.2 := by
  rcases exists_hasStaging_of_ok hFiles h with
    ⟨grown, base, name, published, hStaging, hPublish, -, -⟩
  rcases hStaging.root_of_publish hLinks hForward hFiles hPublish with
    ⟨hRootCheck, hRootFits, hNames⟩
  rcases hNames file hFile with ⟨hEnds, hFits, hNul⟩
  rcases checkPath_eq_ok_iff.mp hRootCheck with ⟨hRootNul, hRoot, -⟩
  have hInside := hStaging.inside file.1 (List.mem_map_of_mem hFile)
  rcases hEnds.way with ⟨way, name, hSteps⟩
  apply readText_of_forward
  · exact (Path.forward_join_iff hRoot hInside.relative).mpr
      ⟨hForward, hInside.forward⟩
  · rw [Path.endsInSlash_join hRoot hInside.ne_empty hInside.relative,
      hEnds.noSlash]
  · exact ⟨Path.steps root ++ way, name, by
      rw [Path.steps_join hRoot hInside.relative, hSteps,
        List.append_assoc]⟩
  · exact (fitsName_join_iff hRoot hInside.relative).mpr
      ⟨hRootFits, hFits⟩
  · rcases Path.exists_stem hRoot with ⟨stem, hStem, hJoin⟩
    refine checkPath_eq_ok_iff.mpr
      ⟨?_, Path.join_ne_empty hRoot hInside.relative, hLength⟩
    rw [hJoin file.1 hInside.relative]
    have hStemNul : '\x00' ∉ stem := fun hMem =>
      hRootNul (hStem.subset hMem)
    simp [hStemNul, hNul]
  · rw [home_writeAll hLinks hFiles h,
      destination_join hRoot hInside.relative hInside.forward]
    exact entryAt?_writeAll_file hLinks hForward hFiles hDistinct h hFile

/-
  Without links, a set of files whose paths differ beyond empty
  components and dots is written as asked for: the answer are
  the places of the files, where they can be read unless their
  paths are too long.  What else was there is still there, and
  what else is new are directories above the files.
-/
theorem writeAll_result
    (set : ArtifactSet)
    (root : String)
    (fs fs' : FileSystem)
    (written : List String)
    (hLinks : NoLinks fs)
    (hForward : .parent ∉ Path.components root)
    (hFiles : set.files ≠ [])
    (hPlain : ∀ path ∈ set.paths, ∀ other ∈ set.paths,
      Path.plain path = Path.plain other → path = other)
    (h : set.writeAll root fs = .ok written fs') :
    written = set.paths.map (Path.join root) ∧
    (∀ file ∈ set.files,
      fs'.entryAt? (destination fs.home (Path.join root file.1)) =
          some (.file file.2.toUTF8) ∧
        (Text.byteLength (Path.join root file.1).toList ≤
            maxPathLength →
          fs'.readText (Path.join root file.1) = .ok file.2)) ∧
    (∀ loc e, fs.entryAt? loc = some e →
      (∀ path ∈ set.paths,
        loc ≠ destination fs.home (Path.join root path)) →
      fs'.entryAt? loc = some e) ∧
    ∀ loc, fs.entryAt? loc = none → fs'.entryAt? loc ≠ none →
      ∃ path ∈ set.paths,
        loc = destination fs.home (Path.join root path) ∨
        loc <+: destination fs.home (Path.join root path) ∧
          fs'.entryAt? loc = some .directory := by
  have hForward : Path.Forward root := by
    by_contra hUp
    exact hForward (parent_mem_components_iff.mpr hUp)
  rcases exists_hasStaging_of_ok hFiles h with
    ⟨grown, base, name, published, hStaging, hPublish, hWritten, -⟩
  rcases hStaging.root_of_publish hLinks hForward hFiles hPublish with
    ⟨hRootCheck, -, -⟩
  have hRoot := ne_empty_of_checkPath hRootCheck
  have hDistinct := distinctPlaces_of_plain hStaging.inside hPlain
  have hEntries :=
    entryAt?_writeAll hLinks hForward hFiles hDistinct h
  have hPlaces : ∀ path ∈ set.paths,
      destination fs.home (Path.join root path) =
        destination fs.home root ++ Path.names path := by
    intro path hPath
    have hInside := hStaging.inside path hPath
    exact destination_join hRoot hInside.relative hInside.forward
  refine ⟨hWritten, fun file hFile => ⟨?_, fun hLength => ?_⟩, ?_, ?_⟩
  · rw [hPlaces _ (List.mem_map_of_mem hFile)]
    exact entryAt?_writeAll_file hLinks hForward hFiles hDistinct h hFile
  · exact readText_place hLinks hForward hFiles hDistinct h hFile
      hLength
  · intro loc e hLoc hApart
    rw [hEntries]
    apply overlay_of_some hLoc
    intro file hFile
    have hPath : file.1 ∈ set.paths := List.mem_map_of_mem hFile
    rw [← hPlaces _ hPath]
    exact hApart _ hPath
  · intro loc hLoc hNew
    rw [hEntries] at hNew ⊢
    rcases exists_of_overlay hLoc hNew with ⟨file, hFile, hOn⟩
    have hPath : file.1 ∈ set.paths := List.mem_map_of_mem hFile
    refine ⟨file.1, hPath, ?_⟩
    rw [hPlaces _ hPath]
    exact hOn

/-
  Files with odd paths are written among others, which stay as
  they are, and nothing is left of the staging directory.
-/
theorem writeAll_result_furnished :
    ∃ fs', (ofList [("a//b", "x"), ("./c/d", "y"), ("e", "z")]).writeAll
          "out" furnished =
        .ok ["out/a//b", "out/./c/d", "out/e"] fs' ∧
      fs'.readText "out/a//b" = .ok "x" ∧
      fs'.readText "out/./c/d" = .ok "y" ∧
      fs'.entryAt? ["work", "out", "a", "z"] =
        some (.file "kept".toUTF8) ∧
      fs'.entryAt? ["work", "notes"] = some (.file "kept".toUTF8) ∧
      fs'.entryAt? ["work", ".declgen-100000"] = none := by
  have hDone : (match (ofList [("a//b", "x"), ("./c/d", "y"),
      ("e", "z")]).writeAll "out" furnished with
    | .ok _ _ => true
    | .error _ _ => false) = true := by decide +kernel
  cases hRun : (ofList [("a//b", "x"), ("./c/d", "y"),
      ("e", "z")]).writeAll "out" furnished with
  | error e fs' => simp [hRun] at hDone
  | ok written fs' =>
      rcases writeAll_result _ "out" furnished fs' written
          noLinks_furnished (by decide) (by decide) (by decide +kernel)
          hRun with
        ⟨rfl, hFiles, hKept, hNew⟩
      refine ⟨fs', rfl, ?_, ?_, ?_, ?_, ?_⟩
      · exact (hFiles ("a//b", "x") (by decide)).2 (by decide)
      · exact (hFiles ("./c/d", "y") (by decide)).2 (by decide)
      · exact hKept _ _ (by decide +kernel) (by decide +kernel)
      · exact hKept _ _ (by decide +kernel) (by decide +kernel)
      · by_contra hThere
        have hApart : ∀ path ∈ (ofList [("a//b", "x"), ("./c/d", "y"),
            ("e", "z")]).paths, ¬ ["work", ".declgen-100000"] <+:
              destination furnished.home (Path.join "out" path) := by
          decide +kernel
        rcases hNew _ (by decide +kernel) hThere with
          ⟨path, hPath, hPlace | ⟨hAbove, -⟩⟩
        · exact hApart path hPath (hPlace ▸ List.prefix_refl _)
        · exact hApart path hPath hAbove

------------------------------------------------------------
-- A File That Cannot Be Named
------------------------------------------------------------

/- A name that is as long as names may be. -/
def longName : String :=
  String.ofList (List.replicate maxNameLength 'n')

/- A file so many directories with long names down. -/
def farPath : Nat → String
| 0 => "x"
| depth + 1 => Path.join longName (farPath depth)

theorem toList_longName :
    longName.toList = List.replicate maxNameLength 'n' :=
  String.toList_ofList

theorem isName_longName : Path.IsName longName := by
  apply Path.isName_of_slash_not_mem
  · simp [toList_longName]
  · rw [toList_longName, List.length_replicate]
    decide

theorem byteLength_longName :
    Text.byteLength longName.toList = maxNameLength := by
  rw [toList_longName, Text.byteLength_replicate]
  decide

theorem farPath_spec (depth : Nat) :
    Path.IsOrdinary (farPath depth) ∧
      Path.names (farPath depth) =
        List.replicate depth longName ++ ["x"] ∧
      Text.byteLength (farPath depth).toList =
        depth * (maxNameLength + 1) + 1 ∧
      '\x00' ∉ (farPath depth).toList := by
  induction depth with
  | zero => decide
  | succ depth ih =>
      rcases ih with ⟨hOrdinary, hNames, hLength, hNul⟩
      refine ⟨(Path.IsOrdinary.of_isName isName_longName).join hOrdinary,
        ?_, ?_, ?_⟩
      · rw [farPath, Path.names_join isName_longName.ne_empty
          hOrdinary.isAbsolute, isName_longName.names, hNames]
        rfl
      · rw [farPath, isName_longName.toList_join hOrdinary.isAbsolute,
          Text.byteLength_append, byteLength_longName,
          Text.byteLength_cons, hLength,
          show '/'.utf8Size = 1 by decide, Nat.succ_mul]
        omega
      · rw [farPath, isName_longName.toList_join hOrdinary.isAbsolute,
          toList_longName]
        simp [hNul]

theorem fitsLimits_longName : Path.FitsLimits longName where
  check := by
    rw [checkPath_eq_ok_iff, byteLength_longName, toList_longName]
    exact ⟨by simp, isName_longName.ne_empty, by decide⟩
  names n hn := by
    rw [isName_longName.names, List.mem_singleton] at hn
    exact hn ▸ Nat.le_of_eq byteLength_longName

theorem stagingParent_of_isName
    {root : String}
    (h : Path.IsName root) :
    stagingParent root = "." := by
  have hPieces := Text.splitAt_of_not_mem h.slash_not_mem
  rcases
      Path.IsOrdinary.of_isName h root.toList (by simp [hPieces]) with
    ⟨hNil, hDot, hDots⟩
  simp [stagingParent, Path.parent?, Path.spans, h.isAbsolute, hPieces,
    Path.spansFrom, hNil, hDot, hDots]

theorem createDirectories_bare :
    Writing.final (createDirectories ".") bare = bare := by
  have hHere : bare.LeadsTo "." (destination bare.home ".") :=
    leadsTo_of_forward (by decide) (by decide) rfl
  exact createDirectories_final_of_leadsTo hHere

theorem stagingPlace_bare
    {set : ArtifactSet}
    {root : String}
    (hRoot : Path.IsName root)
    (hFresh : stagingName 0 ∉ set.mentioned root) :
    set.stagingPlace root bare = Path.join "." (stagingName 0) := by
  have hTaken : takenNames bare "." = [] := by decide
  rw [stagingPlace, stagingParent_of_isName hRoot,
    createDirectories_bare, stagingPath, hTaken,
    List.nil_append, freshStagingName_of_not_mem hFresh]

/- One file is written below a name where there is nothing. -/
theorem writeAll_bare_succeeds
    {root path content : String}
    (hRoot : Path.IsName root)
    (hRootFits : Path.FitsLimits root)
    (hPath : Path.IsOrdinary path)
    (hFresh : stagingName 0 ∉ Path.names root ++ Path.names path)
    (hFits : Path.FitsLimits
      (Path.join (Path.join "." (stagingName 0)) path)) :
    ∃ written fs', (ofList [(path, content)]).writeAll root bare =
      .ok written fs' := by
  have hPaths : (ofList [(path, content)]).paths = [path] := rfl
  have hOrdinaryRoot : Path.IsOrdinaryRoot root :=
    ⟨root, .of_isName hRoot, Or.inl rfl⟩
  have hPlace : (ofList [(path, content)]).stagingPlace root bare =
      Path.join "." (stagingName 0) := by
    apply stagingPlace_bare hRoot
    simpa [mentioned, hPaths] using hFresh
  have hNone : bare.entryAt? (destination bare.home root) = none := by
    rw [destination_of_forward hRoot.forward, hRoot.names, entryAt?_bare,
      if_neg (by simp)]
  have hChecks : checkPaths bare root
      (ofList [(path, content)]).paths = .ok () := by
    rw [checkPaths_eq_ok_iff, hPaths]
    intro other hOther
    rcases List.mem_singleton.mp hOther with rfl
    exact ⟨hPath.staysInside, checkDestination_of_none noLinks_bare
      hRoot.ne_empty hNone hPath.staysInside⟩
  rcases
      @exists_isStaged (ofList [(path, content)]) root bare rfl
        noLinks_bare hOrdinaryRoot hRootFits (isOpen_bare _)
        (List.cons_ne_nil _ _) (by simpa [hPaths] using hPath)
        (by simpa [hPlace, hPaths] using hFits)
        (by simp [hPaths, NoneAbove]) hChecks with
    ⟨grown, base, name, staged, hStaged⟩
  have hExists : staged.exists? root = false := by
    by_contra hThere
    rcases exists?_iff.mp (by simpa using hThere) with
      ⟨loc, hResolve, hSome⟩
    have hLoc := hStaged.eq_destination_of_resolve noLinks_bare hResolve
    have hGrown : bare = grown := by
      have hFinal := Writing.final_of_ok hStaged.parent
      rwa [stagingParent_of_isName hRoot, createDirectories_bare]
        at hFinal
    apply hSome
    rw [hLoc, hStaged.entryAt?_outside hStaged.not_prefix_destination,
      ← hGrown]
    exact hNone
  rcases hStaged.publish_new_succeeds
      noLinks_bare hOrdinaryRoot hRootFits hExists with
    ⟨published, hPublish⟩
  exact ⟨_, _,
    hStaged.writeAll_eq_ok (List.cons_ne_nil _ _) hPublish⟩

/- The first staging directory leaves this much for a path. -/
theorem fitsLimits_staged
    {path : String}
    (hPath : Path.IsOrdinary path)
    (hFits : ∀ n ∈ Path.names path, FitsName n)
    (hNul : '\x00' ∉ path.toList)
    (hLength : Text.byteLength path.toList ≤ 4077) :
    Path.FitsLimits
      (Path.join (Path.join "." (stagingName 0)) path) := by
  have hPlace : Path.join "." (stagingName 0) = "./.declgen-100000" := by
    decide
  rcases Path.exists_stem (show "./.declgen-100000" ≠ "" by decide) with
    ⟨stem, hStem, hJoin⟩
  have hStemLength := Text.byteLength_le_of_sublist hStem.sublist
  have hStemNul : '\x00' ∉ stem := fun hMem =>
    absurd (hStem.subset hMem) (by decide)
  rw [hPlace]
  constructor
  · rw [checkPath_eq_ok_iff, hJoin path hPath.isAbsolute,
      Text.byteLength_append, Text.byteLength_cons]
    refine ⟨by simp [hStemNul, hNul],
      Path.join_ne_empty (by decide) hPath.isAbsolute, ?_⟩
    rw [show Text.byteLength "./.declgen-100000".toList = 17 by decide]
      at hStemLength
    rw [show '/'.utf8Size = 1 by decide,
      show maxPathLength = 4095 from rfl]
    omega
  · exact (fitsName_join_iff (by decide) hPath.isAbsolute).mpr
      ⟨by decide, hFits⟩

/- A path is refused before it is read. -/
theorem checkPath_of_readText
    {path text : String}
    (h : fs.readText path = .ok text) :
    checkPath path = .ok () := by
  rcases bind_eq_ok_iff.mp h with ⟨content, hBytes, -⟩
  rcases bind_eq_ok_iff.mp hBytes with ⟨node, hNode, -⟩
  rcases stat_eq_ok_iff.mp hNode with ⟨loc, hResolve, -⟩
  exact (resolve_eq_ok_iff.mp hResolve).1

/- A file that has been written may be one that cannot be read. -/
theorem writeAll_result_unreadable :
    NoLinks bare ∧ .parent ∉ Path.components longName ∧
    (ofList [(farPath 15, "x")]).files ≠ [] ∧
    (∀ path ∈ (ofList [(farPath 15, "x")]).paths,
      ∀ other ∈ (ofList [(farPath 15, "x")]).paths,
        Path.plain path = Path.plain other → path = other) ∧
    ∃ written fs',
      (ofList [(farPath 15, "x")]).writeAll longName bare =
        .ok written fs' ∧
      fs'.readText (Path.join longName (farPath 15)) ≠ .ok "x" := by
  rcases farPath_spec 15 with ⟨hOrdinary, hNames, hLength, hNul⟩
  generalize farPath 15 = path at *
  have hPaths : (ofList [(path, "x")]).paths = [path] := rfl
  refine ⟨noLinks_bare, ?_, List.cons_ne_nil _ _, by simp [hPaths], ?_⟩
  · rw [parent_mem_components_iff, not_not]
    exact isName_longName.forward
  have hName : stagingName 0 = ".declgen-100000" := by decide
  have hFresh :
      stagingName 0 ∉ Path.names longName ++ Path.names path := by
    have hShort : stagingName 0 ≠ longName := by
      intro hEq
      have hSize := congrArg (Text.byteLength ·.toList) hEq
      simp only [hName, byteLength_longName] at hSize
      exact absurd hSize (by decide)
    rw [hName] at hShort ⊢
    simp [isName_longName.names, hNames, hShort]
  have hFits : ∀ n ∈ Path.names path, FitsName n := by
    intro n hn
    rw [hNames, List.mem_append, List.mem_replicate,
      List.mem_singleton] at hn
    rcases hn with ⟨-, rfl⟩ | rfl
    · exact Nat.le_of_eq byteLength_longName
    · decide
  have hStagingFits := fitsLimits_staged hOrdinary hFits hNul
    (by rw [hLength]; decide)
  rcases @writeAll_bare_succeeds longName path "x"
      isName_longName fitsLimits_longName hOrdinary hFresh
      hStagingFits with
    ⟨written, fs', hRun⟩
  refine ⟨written, fs', hRun, fun hRead => ?_⟩
  have hCheck := checkPath_of_readText hRead
  have hBound := (checkPath_eq_ok_iff.mp hCheck).2.2
  rw [isName_longName.toList_join hOrdinary.isAbsolute,
    Text.byteLength_append, byteLength_longName, Text.byteLength_cons,
    hLength] at hBound
  exact absurd hBound (by decide)

end ArtifactSet

end Bindery

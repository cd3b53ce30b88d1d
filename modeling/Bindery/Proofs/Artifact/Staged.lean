import Bindery.Proofs.Artifact.Filling
import Bindery.Proofs.Artifact.Staging

/-
  This file puts together what is known once a staging
  directory has been made for a set of files, and what is known
  once its files have been staged.  The staging directory has a
  name of its own, so it is on the way to nothing else.

  Key definitions include:
    * `ArtifactSet.mentioned`
    * `HasStaging`
    * `IsStaged`

  Key theorems include:
    * `HasStaging.unique`
    * `hasStaging_of_leadsTo`
    * `HasStaging.not_prefix_of_onWay`
    * `IsStaged.entryAt?_staged`
    * `IsStaged.noneAbove`
-/

namespace Bindery

open FileSystem
open Bindery.Path (Step EndsIn)

------------------------------------------------------------
-- Above the Output Directory
------------------------------------------------------------

/- The staging directory is made in a directory on the way. -/
theorem stagingParent_spec (root : String) :
    Path.moves (stagingParent root) <+: Path.moves root ∧
      (Path.isAbsolute (stagingParent root) = Path.isAbsolute root ∨
        stagingParent root = "." ∧ Path.isAbsolute root = true) := by
  have hDot : Path.moves "." = [] := by decide
  unfold stagingParent
  cases hParent : Path.parent? root with
  | none =>
      rcases Path.moves_of_parent?_eq_none hParent with
        ⟨-, rfl | hAbsolute⟩
      · exact ⟨by simp [hDot], Or.inl rfl⟩
      · exact ⟨by simp [hDot], Or.inr ⟨rfl, hAbsolute⟩⟩
  | some above =>
      have hAbove := Path.isAbove_of_parent? hParent
      by_cases hEmpty : above = ""
      · subst hEmpty
        exact ⟨by simp [hDot], Or.inl hAbove.absolute⟩
      · simp only [String.isEmpty_iff, hEmpty, if_false]
        exact ⟨hAbove.moves_isPrefix, Or.inl hAbove.absolute⟩

theorem names_stagingParent_subset (root : String) :
    Path.names (stagingParent root) ⊆ Path.names root :=
  (Path.names_isPrefix_of_moves (stagingParent_spec root).1).subset

theorem stagingParent_ne_empty (root : String) :
    stagingParent root ≠ "" := by
  unfold stagingParent
  split
  · split
    · simp
    · simp_all
  · simp

/-
  Below a path with a name in it, the staging directory is made
  one name above its end.
-/
theorem stagingParent_of_moves
    (root : String)
    (hMoves : Path.moves root ≠ []) :
    (∃ step, Path.moves root =
      Path.moves (stagingParent root) ++ [step]) ∧
    Path.isAbsolute (stagingParent root) = Path.isAbsolute root ∧
    (stagingParent root = "." ∨
      Path.Trimmed (stagingParent root) ∧
        (stagingParent root).toList <+: root.toList) := by
  have hDot : Path.moves "." = [] := by decide
  unfold stagingParent
  cases hParent : Path.parent? root with
  | none =>
      exact absurd (Path.moves_of_parent?_eq_none hParent).1 hMoves
  | some above =>
      have hAbove := Path.isAbove_of_parent? hParent
      rcases hAbove.moves.resolve_right fun h => hMoves h.2 with
        ⟨step, hStep⟩
      by_cases hEmpty : above = ""
      · subst hEmpty
        exact ⟨⟨step, by simpa [hDot] using hStep⟩, hAbove.absolute,
          Or.inl rfl⟩
      · simp only [String.isEmpty_iff, hEmpty, if_false]
        exact ⟨⟨step, hStep⟩, hAbove.absolute,
          Or.inr ⟨hAbove.trimmed, hAbove.start⟩⟩

------------------------------------------------------------
-- The Staging Directory of a Set
------------------------------------------------------------

/- The names that an output directory and a set of files mention. -/
def ArtifactSet.mentioned
    (set : ArtifactSet)
    (root : String) : List String :=
  Path.names root ++ set.paths.flatMap Path.names

namespace ArtifactSet

variable {set : ArtifactSet} {root path : String}

theorem names_append_subset
    (hPath : path ∈ set.paths) :
    Path.names root ++ Path.names path ⊆ set.mentioned root := by
  intro name hName
  rcases List.mem_append.mp hName with hRootName | hPathName
  · exact List.mem_append_left _ hRootName
  · exact List.mem_append_right _
      (List.mem_flatMap.mpr ⟨path, hPath, hPathName⟩)

theorem names_join_subset
    (hRoot : root ≠ "")
    (hInside : Path.StaysInside path)
    (hPath : path ∈ set.paths) :
    Path.names (Path.join root path) ⊆ set.mentioned root := by
  rw [Path.names_join hRoot hInside.relative]
  exact names_append_subset hPath

end ArtifactSet

/- The file system with a new staging directory. -/
def FileSystem.withStaging
    (grown : FileSystem)
    (base : Location)
    (name : String) : FileSystem :=
  grown.put (base ++ [name]) (.directory [])

/-
  A set of files has passed its checks, the directories above
  the output directory are there, and a staging directory has
  been made in one of them.
-/
structure HasStaging
    (set : ArtifactSet)
    (root : String)
    (fs grown : FileSystem)
    (base : Location)
    (name : String) : Prop where
  checks : checkPaths fs root set.paths = .ok ()
  parent : createDirectories (stagingParent root) fs = .ok () grown
  made : makeStaging (stagingParent root) (set.mentioned root) grown =
    .ok (Path.join (stagingParent root) name)
      (grown.withStaging base name)
  isStaging : IsStaging grown (stagingParent root)
    (set.mentioned root) base name

/- There is one staging directory for a set. -/
theorem HasStaging.unique
    {set : ArtifactSet}
    {root name otherName : String}
    {fs grown other : FileSystem}
    {base otherBase : Location}
    (h : HasStaging set root fs grown base name)
    (hOther : HasStaging set root fs other otherBase otherName) :
    grown = other ∧ base = otherBase ∧ name = otherName := by
  have hEq : grown = other := by
    simpa [h.parent] using hOther.parent
  subst hEq
  rcases h.isStaging.parentLeads.unique
      hOther.isStaging.parentLeads with
    rfl
  refine ⟨rfl, rfl, ?_⟩
  have hMade := hOther.made
  rw [h.made] at hMade
  rcases EStateM.Result.ok.inj hMade with ⟨hPath, -⟩
  have hNames := congrArg Path.names hPath
  rw [Path.names_join h.isStaging.parent_ne_empty
      h.isStaging.isName.isAbsolute,
    Path.names_join h.isStaging.parent_ne_empty
      hOther.isStaging.isName.isAbsolute,
    h.isStaging.isName.names, hOther.isStaging.isName.names] at hNames
  simpa using hNames

section HasStaging

variable {set : ArtifactSet} {root name : String}
variable {fs grown : FileSystem} {base : Location}

/- The staging directory has the name that was drawn for it. -/
theorem HasStaging.name_eq
    (h : HasStaging set root fs grown base name) :
    name = freshStagingName
      (takenNames grown (stagingParent root) ++ set.mentioned root) := by
  rcases makeStaging_eq_ok h.made with ⟨-, -, -, -, hPlace, -⟩
  exact Path.join_injective_of_isName h.isStaging.parent_ne_empty
    h.isStaging.isName (isName_freshStagingName _) hPlace

/- What it takes to make a staging directory. -/
theorem hasStaging_of_leadsTo
    (hChecks : checkPaths fs root set.paths = .ok ())
    (hCreate : createDirectories (stagingParent root) fs =
      .ok () grown)
    (hParentCheck : checkPath (stagingParent root) = .ok ())
    (hParent : grown.LeadsTo (stagingParent root) base)
    (hName : name = freshStagingName
      (takenNames grown (stagingParent root) ++ set.mentioned root))
    (hCheck : checkPath (Path.join (stagingParent root) name) = .ok ())
    (hFits : FitsName name) :
    HasStaging set root fs grown base name := by
  subst hName
  rcases makeStaging_succeeds hParentCheck hParent hCheck hFits with
    ⟨started, hMade⟩
  rcases makeStaging_eq_ok hMade with ⟨dir, other, hIs, hEq, -, rfl⟩
  obtain rfl := hIs.parentLeads.unique hParent
  obtain rfl := Path.join_injective_of_isName hIs.parent_ne_empty
    (isName_freshStagingName _) hIs.isName hEq
  exact ⟨hChecks, hCreate, hMade, hIs⟩

end HasStaging

namespace HasStaging

variable {set : ArtifactSet} {root name : String}
variable {fs grown staged : FileSystem} {base : Location}

theorem grows (h : HasStaging set root fs grown base name) :
    Grows (EndsIn (Path.names root)) fs grown := by
  have hGrows := createDirectories_grows (stagingParent root) fs
  rw [Writing.final_of_ok h.parent] at hGrows
  exact hGrows.mono fun loc hLoc =>
    hLoc.mono (names_stagingParent_subset root)

theorem inside
    (h : HasStaging set root fs grown base name) :
    ∀ path ∈ set.paths, Path.StaysInside path :=
  fun path hPath => (checkPaths_eq_ok_iff.mp h.checks path hPath).1

theorem leadsTo (h : HasStaging set root fs grown base name) :
    (grown.withStaging base name).LeadsTo
      (Path.join (stagingParent root) name) (base ++ [name]) :=
  h.isStaging.leadsTo

theorem staging_ne_empty
    (h : HasStaging set root fs grown base name) :
    Path.join (stagingParent root) name ≠ "" :=
  ne_empty_of_checkPath h.isStaging.check

theorem home_withStaging
    (h : HasStaging set root fs grown base name) :
    (grown.withStaging base name).home = fs.home :=
  h.grows.home

theorem noLinks_withStaging
    (h : HasStaging set root fs grown base name)
    (hLinks : NoLinks fs) :
    NoLinks (grown.withStaging base name) := by
  intro loc target
  rw [withStaging, h.isStaging.entryAt?_put]
  split
  · simp
  · exact hLinks.grows h.grows loc target

/- Staging a set fills its staging directory. -/
theorem stageFiles_fills
    (h : HasStaging set root fs grown base name) :
    FillsBelow (base ++ [name]) (grown.withStaging base name)
      (Writing.final
        (stageFiles (Path.join (stagingParent root) name) set.files)
        (grown.withStaging base name)) := by
  apply Bindery.stageFiles_fills h.leadsTo h.isStaging.noLinksBelow
    h.staging_ne_empty
  intro file hFile
  exact h.inside file.1 (List.mem_map_of_mem hFile)

/- There was nothing in the staging directory before. -/
theorem none_of_isPrefix
    (h : HasStaging set root fs grown base name)
    {loc : Location}
    (hLoc : base ++ [name] <+: loc) :
    fs.entryAt? loc = none := by
  by_contra hSome
  rcases Option.ne_none_iff_exists'.mp hSome with ⟨e, hEntry⟩
  have hKept := h.grows.kept loc e hEntry
  simp [h.isStaging.none_below loc hLoc] at hKept

theorem entryAt?_withStaging_append
    (h : HasStaging set root fs grown base name)
    (below : List String) :
    (grown.withStaging base name).entryAt? (base ++ [name] ++ below) =
      if below = [] then some .directory else none := by
  rw [withStaging, h.isStaging.entryAt?_put]
  by_cases hNil : below = []
  · simp [hNil]
  · rw [if_neg (by simpa using hNil), if_neg hNil,
      h.isStaging.none_below _ (List.prefix_append _ _)]

/- Outside of the staging directory nothing has changed. -/
theorem entryAt?_of_fills
    (h : HasStaging set root fs grown base name)
    (hFills : FillsBelow (base ++ [name])
      (grown.withStaging base name) staged)
    {loc : Location}
    (hLoc : ¬ base ++ [name] <+: loc) :
    staged.entryAt? loc = grown.entryAt? loc := by
  rw [hFills.outside loc hLoc, withStaging, h.isStaging.entryAt?_put,
    if_neg]
  rintro rfl
  exact hLoc (List.prefix_refl _)

/- The way to the output directory starts where a directory is. -/
theorem directory_startOf
    (h : HasStaging set root fs grown base name) :
    grown.entryAt? (startOf fs.home root) = some .directory := by
  have hParent := h.isStaging.parentLeads
  rcases (stagingParent_spec root).2 with hSame | ⟨-, hAbsolute⟩
  · -- the way to the staging directory starts there as well
    rw [← h.grows.home, ← startOf_eq grown hSame]
    exact Leads.directory_here hParent
  · simpa [startOf, hAbsolute] using directory_root hParent.directory

/-
  What is on a way along the names of the output directory and
  the files is not in the staging directory.
-/
theorem not_prefix_of_onWay
    (h : HasStaging set root fs grown base name)
    {names : List String}
    {loc : Location}
    (hNames : names ⊆ set.mentioned root)
    (hOn : OnWay (startOf fs.home root) names loc) :
    ¬ base ++ [name] <+: loc := by
  intro hLoc
  rcases hOn _ hLoc with hStart | ⟨other, hOther, hLast⟩
  · have hNone := entryAt?_of_isPrefix_of_none hStart h.isStaging.none
    simp [h.directory_startOf] at hNone
  · have hEq : name = other := by simpa using hLast
    subst hEq
    exact h.isStaging.fresh (hNames hOther)

/- The output directory is not in the staging directory. -/
theorem not_prefix_destination
    (h : HasStaging set root fs grown base name) :
    ¬ base ++ [name] <+: destination fs.home root :=
  h.not_prefix_of_onWay (List.subset_append_left _ _)
    (onWay_destination _ _)

theorem not_prefix_place
    (h : HasStaging set root fs grown base name)
    {path : String}
    (hPath : path ∈ set.paths) :
    ¬ base ++ [name] <+:
      destination fs.home root ++ Path.names path :=
  h.not_prefix_of_onWay (ArtifactSet.names_append_subset hPath)
    ((onWay_destination _ _).append (Path.names path))

end HasStaging

------------------------------------------------------------
-- A Staged Set
------------------------------------------------------------

/- The files of a set have been put into its staging directory. -/
structure IsStaged
    (set : ArtifactSet)
    (root : String)
    (fs grown : FileSystem)
    (base : Location)
    (name : String)
    (staged : FileSystem) : Prop
    extends HasStaging set root fs grown base name where
  stage : stageFiles (Path.join (stagingParent root) name) set.files
    (grown.withStaging base name) = .ok () staged

namespace IsStaged

variable {set : ArtifactSet} {root name : String}
variable {fs grown staged : FileSystem} {base : Location}

theorem fills
    (h : IsStaged set root fs grown base name staged) :
    FillsBelow (base ++ [name]) (grown.withStaging base name)
      staged := by
  have hFills := h.stageFiles_fills
  rwa [Writing.final_of_ok h.stage] at hFills

theorem home
    (h : IsStaged set root fs grown base name staged) :
    staged.home = fs.home :=
  h.fills.keeps.home.trans h.home_withStaging

theorem noLinks
    (h : IsStaged set root fs grown base name staged)
    (hLinks : NoLinks fs) :
    NoLinks staged :=
  (h.noLinks_withStaging hLinks).fills h.fills

theorem leadsToStaging
    (h : IsStaged set root fs grown base name staged) :
    staged.LeadsTo (Path.join (stagingParent root) name)
      (base ++ [name]) :=
  h.leadsTo.mono h.fills.keeps

theorem entryAt?_outside
    (h : IsStaged set root fs grown base name staged)
    {loc : Location}
    (hLoc : ¬ base ++ [name] <+: loc) :
    staged.entryAt? loc = grown.entryAt? loc :=
  h.entryAt?_of_fills h.fills hLoc

/- Without links a path can only be found where it leads. -/
theorem eq_destination_of_resolve
    (h : IsStaged set root fs grown base name staged)
    (hLinks : NoLinks fs)
    {path : String}
    {loc : Location}
    (hResolve : staged.resolve path = .ok (.present loc)) :
    loc = destination fs.home path := by
  rw [← h.home]
  exact location_of_resolve (h.noLinks hLinks) hResolve

theorem eq_destination
    (h : IsStaged set root fs grown base name staged)
    (hLinks : NoLinks fs)
    {path : String}
    {loc : Location}
    (hLeads : staged.LeadsTo path loc) :
    loc = destination fs.home path := by
  rw [← h.home]
  exact hLeads.eq_destination (h.noLinks hLinks)

/- What is where in the staging directory of a set. -/
theorem entryAt?_staged
    (h : IsStaged set root fs grown base name staged)
    (loc : Location) :
    staged.entryAt? loc =
      overlay (base ++ [name]) set.files
        (grown.withStaging base name).entryAt? loc :=
  (stageFiles_eq_ok h.leadsTo h.isStaging.noLinksBelow
    h.staging_ne_empty
    (fun file hFile => h.inside file.1 (List.mem_map_of_mem hFile))
    h.stage).1 loc

/- What has been staged has a path that files can have. -/
theorem of_mem
    (h : IsStaged set root fs grown base name staged)
    {file : String × String}
    (hFile : file ∈ set.files) :
    Path.EndsInName file.1 ∧
      (∀ n ∈ Path.names file.1, FitsName n) ∧
      checkPath (Path.join (Path.join (stagingParent root) name)
        file.1) = .ok () :=
  (stageFiles_eq_ok h.leadsTo h.isStaging.noLinksBelow
    h.staging_ne_empty
    (fun other hOther => h.inside other.1 (List.mem_map_of_mem hOther))
    h.stage).2 file hFile

/- Where a file of a set has been staged, there is a file. -/
theorem exists_entryAt?
    (h : IsStaged set root fs grown base name staged)
    {path : String}
    (hPath : path ∈ set.paths) :
    ∃ content, lastAt [] set.files (Path.names path) = some content ∧
      staged.entryAt? (base ++ [name] ++ Path.names path) =
        some (.file content.toUTF8) := by
  have hLast := @lastAt_ne_none_of_mem [] set.files path hPath
  rcases Option.ne_none_iff_exists'.mp hLast with ⟨content, hContent⟩
  rw [List.nil_append] at hContent
  refine ⟨content, hContent, ?_⟩
  rw [h.entryAt?_staged, overlay, lastAt_append, hContent]

theorem entryAt?_file
    (h : IsStaged set root fs grown base name staged)
    (hDistinct : DistinctPlaces set.files)
    {file : String × String}
    (hFile : file ∈ set.files) :
    staged.entryAt? (base ++ [name] ++ Path.names file.1) =
      some (.file file.2.toUTF8) := by
  rw [h.entryAt?_staged, overlay, lastAt_of_distinct hDistinct hFile]

/- Among files that have been staged, none stands above another. -/
theorem noneAbove
    (h : IsStaged set root fs grown base name staged) :
    NoneAbove set.paths := by
  intro path hPath other hOther hPrefix
  rcases h.exists_entryAt? hPath with ⟨content, -, hFile⟩
  rcases h.exists_entryAt? hOther with ⟨below, -, hBelow⟩
  by_contra hNe
  have hDirectory := @directory_of_isPrefix staged _ _
    ((List.prefix_append_right_inj (base ++ [name])).mpr hPrefix)
    (by simpa using hNe) (by rw [hBelow]; simp)
  rw [hFile] at hDirectory
  simp at hDirectory

end IsStaged

end Bindery

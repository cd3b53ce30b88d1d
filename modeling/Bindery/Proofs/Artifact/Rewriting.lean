import Bindery.Proofs.Artifact.Delivery
import Bindery.Proofs.Keyed

/-
  This file says that a set of files that is in place can be
  written once more without a change: not even the order of the
  entries in a directory is another one.  What is done below the
  staging directory goes away with it, and a file that is moved
  onto its own content leaves the rest as it is.

  Key definitions include:
    * `IsInPlace`

  Key theorems include:
    * `Node.Descends.remove_of_isPrefix`
    * `stageFiles_remove`
    * `IsStaged.remove_staging`
    * `MovesBelow.moveFiles_inPlace`
    * `IsStaged.writeAll_inPlace`
-/

namespace Bindery

open FileSystem
open Bindery.Path (Step)

------------------------------------------------------------
-- Changes Below a Location That Is Removed
------------------------------------------------------------

namespace Node

/-
  A change below a location goes away with it, if what changes
  in the last directory goes away with the entry.
-/
theorem Descends.remove_of_isPrefix
    {change : Node → Location → Node}
    (h : Descends change)
    (hLast : ∀ entries name,
      (change (.directory entries) [name]).remove [name] =
        (directory entries).remove [name])
    (node : Node)
    {above loc : Location}
    (hAbove : above ≠ [])
    (hPrefix : above <+: loc) :
    (change node loc).remove above = node.remove above := by
  have hLoc : loc ≠ [] := by
    rintro rfl
    exact hAbove (List.prefix_nil.mp hPrefix)
  refine h.induct (motive := fun node loc after => ∀ above, above ≠ [] →
    above <+: loc → after.remove above = node.remove above)
    ?same ?last ?above node hLoc above hAbove hPrefix
  case same =>
    intro node loc _ _ above _ _
    rfl
  case last =>
    intro entries name above hAbove hPrefix
    rcases List.prefix_cons_iff.mp hPrefix with rfl | ⟨rest, rfl, hRest⟩
    · exact absurd rfl hAbove
    · rw [List.prefix_nil.mp hRest]
      exact hLast entries name
  case above =>
    intro entries name next rest child after hGet ih above hAbove hPrefix
    rcases List.prefix_cons_iff.mp hPrefix with rfl | ⟨below, rfl, hBelow⟩
    · exact absurd rfl hAbove
    · cases below with
      | nil => simp [remove, Keyed.erase_put]
      | cons other others =>
          simp [remove, hGet, Keyed.get?_put, Keyed.put_put,
            ih (other :: others) (by simp) hBelow]

/- What is put below a location goes away with it. -/
theorem remove_put_of_isPrefix
    (new node : Node)
    {above loc : Location}
    (hAbove : above ≠ [])
    (hPrefix : above <+: loc) :
    (put new node loc).remove above = node.remove above :=
  (descends_put new).remove_of_isPrefix
    (fun entries name => by simp [put, remove, Keyed.erase_put])
    node hAbove hPrefix

/- So does what is removed below it. -/
theorem remove_remove_of_isPrefix
    (node : Node)
    {above loc : Location}
    (hAbove : above ≠ [])
    (hPrefix : above <+: loc) :
    (node.remove loc).remove above = node.remove above :=
  descends_remove.remove_of_isPrefix
    (fun entries name => by simp [remove, Keyed.erase_erase])
    node hAbove hPrefix

/- A node that is there already is put without a change. -/
theorem put_of_at?
    {new node : Node}
    {loc : Location}
    (h : node.at? loc = some new) :
    put new node loc = node := by
  by_cases hLoc : loc = []
  · subst hLoc
    simpa [put, at?, eq_comm] using h
  refine (descends_put new).induct (motive := fun node loc after =>
    node.at? loc = some new → after = node) ?same ?last ?above node hLoc h
  case same =>
    intro node loc _ _ _
    rfl
  case last =>
    intro entries name hAt
    have hGet : Keyed.get? name entries = some new := by
      cases hGet : Keyed.get? name entries with
      | none => simp [at?, hGet] at hAt
      | some child => simpa [at?, hGet] using hAt
    rw [put, Keyed.put_of_get? hGet]
  case above =>
    intro entries name next rest child after hGet ih hAt
    rw [ih (by simpa [at?, hGet] using hAt), Keyed.put_of_get? hGet]

/- Nothing is removed where nothing is. -/
theorem remove_of_at?_eq_none
    {node : Node}
    {loc : Location}
    (h : node.at? loc = none) :
    node.remove loc = node := by
  have hLoc : loc ≠ [] := by
    rintro rfl
    simp [at?] at h
  refine descends_remove.induct (motive := fun node loc after =>
    node.at? loc = none → after = node) ?same ?last ?above node hLoc h
  case same =>
    intro node loc _ _ _
    rfl
  case last =>
    intro entries name hAt
    cases hGet : Keyed.get? name entries with
    | none => rw [remove, Keyed.erase_of_get?_eq_none hGet]
    | some child => simp [at?, hGet] at hAt
  case above =>
    intro entries name next rest child after hGet ih hAt
    rw [ih (by simpa [at?, hGet] using hAt), Keyed.put_of_get? hGet]

end Node

namespace FileSystem

variable {fs fs' : FileSystem} {above loc : Location}

theorem remove_put_of_isPrefix
    (fs : FileSystem)
    (node : Node)
    (hAbove : above ≠ [])
    (hPrefix : above <+: loc) :
    (fs.put loc node).remove above = fs.remove above := by
  unfold put remove
  rw [Node.remove_put_of_isPrefix node fs.root hAbove hPrefix]

theorem remove_remove_of_isPrefix
    (fs : FileSystem)
    (hAbove : above ≠ [])
    (hPrefix : above <+: loc) :
    (fs.remove loc).remove above = fs.remove above := by
  unfold remove
  rw [Node.remove_remove_of_isPrefix fs.root hAbove hPrefix]

theorem remove_of_none (h : fs.entryAt? loc = none) :
    fs.remove loc = fs := by
  unfold remove
  rw [Node.remove_of_at?_eq_none (entryAt?_eq_none_iff.mp h)]

theorem put_file_of_entryAt?
    {content : ByteArray}
    (h : fs.entryAt? loc = some (.file content)) :
    fs.put loc (.file content) = fs := by
  unfold put
  rw [Node.put_of_at? (entryAt?_eq_file_iff.mp h)]

/- A directory that shows nowhere else goes away with its location. -/
theorem remove_of_makeDirectory
    {path : String}
    (hAbove : above ≠ [])
    (hOutside : ∀ other, ¬ above <+: other →
      fs'.entryAt? other = fs.entryAt? other)
    (h : fs.makeDirectory path = .ok fs') :
    fs'.remove above = fs.remove above := by
  rcases makeDirectory_eq_ok_iff.mp h with
    ⟨-, dir, name, hLies, hNone, rfl⟩
  apply remove_put_of_isPrefix _ _ hAbove
  by_contra hApart
  have hSame := hOutside _ hApart
  rw [entryAt?_put_directory hLies.directory (by simp [hNone]),
    if_pos rfl, hNone] at hSame
  simp at hSame

end FileSystem

------------------------------------------------------------
-- Staging
------------------------------------------------------------

section Staging

variable {fs fs' : FileSystem} {staging path content : String}
variable {above base : Location}

/- Directories that are created below a location go away with it. -/
theorem createFrom_remove
    {paths : List String}
    (hAbove : above ≠ [])
    (hOutside : ∀ other, ¬ above <+: other →
      (Writing.final (createFrom paths) fs).entryAt? other =
        fs.entryAt? other) :
    (Writing.final (createFrom paths) fs).remove above =
      fs.remove above := by
  induction paths with
  | nil => rfl
  | cons path rest ih =>
      rcases createFrom_cons_final path rest fs with
        hSame | hMade | ⟨-, hSame | hMade⟩
      · rw [hSame]
      · exact remove_of_makeDirectory hAbove hOutside hMade
      · rw [hSame] at hOutside ⊢
        exact ih hOutside
      · -- what is there halfway is there before and in the end
        have hFirst : Grows (fun _ => True) fs
            (Writing.final (createFrom rest) fs) :=
          createFrom_grows_of fun _ _ _ _ _ _ _ => trivial
        have hLast : Grows (fun _ => True)
            (Writing.final (createFrom rest) fs)
            (Writing.final (createFrom (path :: rest)) fs) :=
          Grows.of_makeDirectory hMade fun _ _ _ => trivial
        have hMiddle : ∀ other, ¬ above <+: other →
            (Writing.final (createFrom rest) fs).entryAt? other =
              fs.entryAt? other := by
          intro other hOther
          cases hOld : fs.entryAt? other with
          | some e => exact hFirst.kept other e hOld
          | none =>
              by_contra hSome
              rcases Option.ne_none_iff_exists'.mp hSome with ⟨e, hNew⟩
              have hThere := hOutside other hOther
              rw [hLast.kept other e hNew, hOld] at hThere
              simp at hThere
        rw [remove_of_makeDirectory hAbove
          (fun other hOther => (hOutside other hOther).trans
            (hMiddle other hOther).symm) hMade, ih hMiddle]

theorem createParent_remove
    (hAbove : above ≠ [])
    (hOutside : ∀ other, ¬ above <+: other →
      (Writing.final (createParent path) fs).entryAt? other =
        fs.entryAt? other) :
    (Writing.final (createParent path) fs).remove above =
      fs.remove above := by
  unfold createParent at hOutside ⊢
  split
  · rename_i parent hParent
    simp only [hParent] at hOutside
    exact createFrom_remove hAbove hOutside
  · rfl

/- A file that is written below a directory goes away with it. -/
theorem writeWithParents_remove
    (hBase : fs.LeadsTo staging base)
    (hBaseNe : base ≠ [])
    (hLinks : NoLinksBelow fs base)
    (hStaging : staging ≠ "")
    (hInside : Path.StaysInside path)
    (h : writeWithParents (Path.join staging path) content fs =
      .ok () fs') :
    fs'.remove base = fs.remove base := by
  rcases Writing.bind_eq_ok_iff.mp h with ⟨⟨⟩, middle, hCreate, hWrite⟩
  have hFills := createParent_fills hBase hLinks hStaging hInside
  have hRemove := createParent_remove hBaseNe hFills.outside
  rw [Writing.final_of_ok hCreate] at hFills hRemove
  rcases writeFile_join_eq_ok (hBase.mono hFills.keeps)
      (hFills.noLinks hLinks) hStaging hInside
      (Writing.perform_eq_ok_iff.mp hWrite) with
    ⟨init, name, -, -, -, -, -, -, rfl⟩
  rw [remove_put_of_isPrefix _ _ hBaseNe, hRemove]
  rw [List.append_assoc]
  exact List.prefix_append _ _

/- So do all files that are staged. -/
theorem stageFiles_remove
    {files : List (String × String)}
    (hBase : fs.LeadsTo staging base)
    (hBaseNe : base ≠ [])
    (hLinks : NoLinksBelow fs base)
    (hStaging : staging ≠ "")
    (hInside : ∀ file ∈ files, Path.StaysInside file.1)
    (h : stageFiles staging files fs = .ok () fs') :
    fs'.remove base = fs.remove base := by
  induction files generalizing fs with
  | nil =>
      obtain rfl : fs = fs' := by
        simpa [stageFiles, pure, EStateM.pure] using h
      rfl
  | cons file rest ih =>
      rcases file with ⟨path, content⟩
      rcases Writing.bind_eq_ok_iff.mp h with ⟨⟨⟩, middle, hOne, hRest⟩
      rw [List.forall_mem_cons] at hInside
      have hFills := writeWithParents_fills hBase hLinks hStaging
        hInside.1 content
      rw [Writing.final_of_ok hOne] at hFills
      rw [ih (hBase.mono hFills.keeps) (hFills.noLinks hLinks) hInside.2
        hRest]
      exact writeWithParents_remove hBase hBaseNe hLinks hStaging
        hInside.1 hOne

end Staging

/- Without its staging directory a staged set has changed nothing. -/
theorem IsStaged.remove_staging
    {set : ArtifactSet}
    {root name : String}
    {fs grown staged : FileSystem}
    {base : Location}
    (h : IsStaged set root fs grown base name staged) :
    staged.remove (base ++ [name]) = grown := by
  have hNe : base ++ [name] ≠ [] := by simp
  rw [stageFiles_remove h.leadsTo hNe h.isStaging.noLinksBelow
    h.staging_ne_empty
    (fun file hFile => h.inside file.1 (List.mem_map_of_mem hFile))
    h.stage, withStaging, remove_put_of_isPrefix _ _ hNe
      (List.prefix_refl _), remove_of_none h.isStaging.none]

------------------------------------------------------------
-- Moving Files onto Themselves
------------------------------------------------------------

/- The directory of a place that is there need not be created. -/
theorem createParent_of_directory
    {fs : FileSystem}
    {base path name : String}
    {loc : Location}
    {init : List String}
    (hBase : fs.LeadsTo base loc)
    (hBelow : Path.Below base (init ++ [name]) path)
    (hFits : ∀ n ∈ init, FitsName n)
    (hDirectory : fs.entryAt? (loc ++ init) = some .directory) :
    Writing.final (createParent path) fs = fs := by
  rcases hBelow.exists_above with ⟨above, hParent, hAbove, -⟩
  simp only [createParent, hParent]
  exact createDirectories_final_of_leadsTo
    (hBase.below hAbove hFits hDirectory)

/- A file is where it is to be written. -/
structure IsInPlace
    (fs : FileSystem)
    (root : String)
    (target : Location)
    (file : String × String) : Prop where
  ends : Path.EndsInName file.1
  fits : ∀ n ∈ Path.names file.1, FitsName n
  check : checkPath (Path.join root file.1) = .ok ()
  there : fs.entryAt? (target ++ Path.names file.1) =
    some (.file file.2.toUTF8)

/- Its place counts as free: it is no directory. -/
theorem IsInPlace.isWritable
    {fs : FileSystem}
    {root : String}
    {target : Location}
    {file : String × String}
    (h : IsInPlace fs root target file) :
    IsWritable fs root target file.1 where
  ends := h.ends
  fits := h.fits
  check := h.check
  free := by
    constructor
    · intro above hAbove hNe
      right
      refine directory_of_isPrefix
        ((List.prefix_append_right_inj target).mpr hAbove)
        (by simpa using hNe) ?_
      rw [h.there]
      simp
    · rw [h.there]
      simp

namespace MovesBelow

variable {fs fs' : FileSystem} {staging root : String}
variable {source target : Location} {paths : List String}

/- A file that is moved onto its own content is only taken away. -/
theorem moveFile_inPlace
    {file : String × String}
    (h : MovesBelow fs staging root source target paths)
    (hPath : file.1 ∈ paths)
    (hFile : fs.entryAt? (source ++ Path.names file.1) =
      some (.file file.2.toUTF8))
    (hOldCheck : checkPath (Path.join staging file.1) = .ok ())
    (hInPlace : IsInPlace fs root target file) :
    moveFile staging root file.1 fs =
      .ok () (fs.remove (source ++ Path.names file.1)) := by
  have hInside := h.inside file.1 hPath
  rcases h.moveFile_eq hPath hFile hOldCheck hInPlace.isWritable with
    ⟨middle, init, name, hCreate, hNames, -, -, -, hMove⟩
  have hThere := hInPlace.there
  have hFits := hInPlace.fits
  have hBelow := Path.below_join h.rootNe hInside.relative
    hInside.forward
  rw [hNames] at hFits hBelow
  rw [hNames, ← List.append_assoc] at hThere
  have hSame := createParent_of_directory h.rooted hBelow
    (fun n hn => hFits n (List.mem_append_left _ hn))
    (directory_of_append [name] (by simp) (by rw [hThere]; simp))
  rw [Writing.final_of_ok hCreate] at hSame
  subst hSame
  rw [hMove, put_file_of_entryAt?, hNames, ← List.append_assoc]
  rw [FileSystem.entryAt?_remove,
    if_neg (h.not_prefix_place hPath hNames), hThere]

/- The other files are still to be moved then. -/
theorem remove_inPlace
    {file : String × String}
    (h : MovesBelow fs staging root source target paths)
    (hPath : file.1 ∈ paths)
    (hFile : fs.entryAt? (source ++ Path.names file.1) =
      some (.file file.2.toUTF8))
    (hInPlace : IsInPlace fs root target file) :
    MovesBelow (fs.remove (source ++ Path.names file.1)) staging root
        source target paths ∧
      ∀ loc, loc ≠ source ++ Path.names file.1 →
        (fs.remove (source ++ Path.names file.1)).entryAt? loc =
          fs.entryAt? loc := by
  rcases hInPlace.ends.exists_names with ⟨init, name, hNames⟩
  have hOutside : ∀ loc, loc ≠ source ++ Path.names file.1 →
      (fs.remove (source ++ Path.names file.1)).entryAt? loc =
        fs.entryAt? loc := by
    intro loc hLoc
    rw [hNames, ← List.append_assoc] at hLoc hFile ⊢
    rw [FileSystem.entryAt?_remove]
    split
    · rename_i hBelow
      -- there is nothing below a file
      rw [entryAt?_eq_none_of_isPrefix hBelow (Ne.symm hLoc)]
      rw [hFile]
      simp
    · rfl
  have hPlace : target ++ Path.names file.1 ≠
      source ++ Path.names file.1 := by
    intro hEq
    exact h.apart file.1 hPath (hEq ▸ List.prefix_append _ _)
  have hGone : (fs.remove (source ++ Path.names file.1)).entryAt?
      (source ++ Path.names file.1) = none := by
    rw [hNames, ← List.append_assoc, FileSystem.entryAt?_remove,
      if_pos (List.prefix_refl _)]
  have hEntries : ∀ loc,
      (fs.remove (source ++ Path.names file.1)).entryAt? loc =
        if loc = target ++ Path.names file.1 then
          some (.file file.2.toUTF8)
        else if loc = source ++ Path.names file.1 then none
        else fs.entryAt? loc := by
    intro loc
    split
    · rename_i hEq
      rw [hEq, hOutside _ hPlace, hInPlace.there]
    · split
      · rename_i hEq
        rw [hEq, hGone]
      · rename_i hNe
        exact hOutside loc hNe
  exact ⟨h.moved rfl ⟨_, hFile⟩ (by rw [hInPlace.there]; simp)
    (List.prefix_append _ (Path.names file.1)) hEntries, hOutside⟩

/- Files that are moved onto themselves are only taken away. -/
theorem moveFiles_inPlace
    {files : List (String × String)}
    (h : MovesBelow fs staging root source target paths)
    (hSource : source ≠ [])
    (hPaths : ∀ file ∈ files, file.1 ∈ paths)
    (hFiles : ∀ file ∈ files,
      fs.entryAt? (source ++ Path.names file.1) =
        some (.file file.2.toUTF8))
    (hDistinct : DistinctPlaces files)
    (hOldChecks : ∀ file ∈ files,
      checkPath (Path.join staging file.1) = .ok ())
    (hInPlace : ∀ file ∈ files, IsInPlace fs root target file) :
    ∃ fs', moveFiles staging root (files.map Prod.fst) fs =
        .ok () fs' ∧
      fs'.LeadsTo staging source ∧
      fs'.remove source = fs.remove source := by
  induction files generalizing fs with
  | nil => exact ⟨fs, rfl, h.staged, rfl⟩
  | cons file rest ih =>
      rw [List.forall_mem_cons] at hPaths hFiles hOldChecks hInPlace
      rw [DistinctPlaces, List.pairwise_cons] at hDistinct
      rcases h.remove_inPlace hPaths.1 hFiles.1 hInPlace.1 with
        ⟨hMoved, hOutside⟩
      have hRestFiles : ∀ other ∈ rest,
          (fs.remove (source ++ Path.names file.1)).entryAt?
            (source ++ Path.names other.1) =
              some (.file other.2.toUTF8) := by
        intro other hOther
        rw [hOutside, hFiles.2 other hOther]
        simpa using (hDistinct.1 other hOther).symm
      have hRestInPlace : ∀ other ∈ rest,
          IsInPlace (fs.remove (source ++ Path.names file.1)) root
            target other := by
        intro other hOther
        have hOld := hInPlace.2 other hOther
        refine ⟨hOld.ends, hOld.fits, hOld.check, ?_⟩
        rw [hOutside, hOld.there]
        intro hEq
        exact h.apart other.1 (hPaths.2 other hOther)
          (hEq ▸ List.prefix_append _ _)
      rcases ih hMoved hPaths.2 hRestFiles hDistinct.2 hOldChecks.2
          hRestInPlace with
        ⟨fs', hRest, hLeads, hRemove⟩
      refine ⟨fs', ?_, hLeads, ?_⟩
      · rw [List.map_cons, moveFiles_cons]
        exact Writing.bind_eq_ok_iff.mpr ⟨(), _,
          h.moveFile_inPlace hPaths.1 hFiles.1 hOldChecks.1 hInPlace.1,
          hRest⟩
      · rw [hRemove, remove_remove_of_isPrefix _ hSource
          (List.prefix_append _ _)]

end MovesBelow

------------------------------------------------------------
-- Writing What Is There
------------------------------------------------------------

/-
  A set that can be staged is written without any change where
  all of its files are in place.
-/
theorem IsStaged.writeAll_inPlace
    {set : ArtifactSet}
    {root name : String}
    {fs staged : FileSystem}
    {base target : Location}
    (h : IsStaged set root fs fs base name staged)
    (hFiles : set.files ≠ [])
    (hDistinct : DistinctPlaces set.files)
    (hCheck : checkPath root = .ok ())
    (hRoot : fs.LeadsTo root target)
    (hLinks : NoLinksBelow fs target)
    (hApart : ∀ path ∈ set.paths,
      ¬ base ++ [name] <+: target ++ Path.names path)
    (hInPlace : ∀ file ∈ set.files, IsInPlace fs root target file) :
    set.writeAll root fs = .ok (set.places root) fs := by
  have hMoves := h.movesBelow (ne_empty_of_checkPath hCheck) hRoot
    hLinks hApart
  have hExists : staged.exists? root = true :=
    exists?_of_isDirectory
      (isDirectory_iff.mpr ⟨hCheck, target, hMoves.rooted⟩)
  have hStagedInPlace : ∀ file ∈ set.files,
      IsInPlace staged root target file := by
    intro file hFile
    have hOld := hInPlace file hFile
    refine ⟨hOld.ends, hOld.fits, hOld.check, ?_⟩
    rw [h.entryAt?_outside (hApart file.1 (List.mem_map_of_mem hFile)),
      hOld.there]
  rcases hMoves.moveFiles_inPlace (by simp)
      (fun file hFile => List.mem_map_of_mem hFile)
      (fun file hFile => h.entryAt?_file hDistinct hFile) hDistinct
      (fun file hFile => (h.of_mem hFile).2.2) hStagedInPlace with
    ⟨published, hMove, hLeads, hRemove⟩
  have hPublish := (h.publish_eq_moveFiles hExists).trans hMove
  rw [h.toHasStaging.writeAll_eq_ok hFiles hPublish,
    removeAt_of_leadsTo h.isStaging.check hLeads, hRemove,
    h.remove_staging]

end Bindery

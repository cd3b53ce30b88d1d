import Bindery.Proofs.Artifact.Moving
import Bindery.Proofs.Artifact.Staged

/-
  This file takes the writing of a set of files apart: the
  checks, the directory above the output directory, the staging
  directory, and what is moved from there.  Without links, no
  file outside of the output directory is touched.

  Key definitions include:
    * `ArtifactSet.publishAndClear`
    * `LeavesOnlyStaging`

  Key theorems include:
    * `ArtifactSet.writeAll_cases`
    * `IsStaged.isMoving`
    * `HasStaging.publish_cases`
    * `HasStaging.publishAndClear_spares`
-/

namespace Bindery

open FileSystem
open Bindery.Path (Step EndsIn)

------------------------------------------------------------
-- Removing What Is Left
------------------------------------------------------------

theorem removeAt_of_leadsTo
    {fs : FileSystem}
    {path : String}
    {loc : Location}
    (hCheck : checkPath path = .ok ())
    (h : fs.LeadsTo path loc) :
    removeAt path fs = fs.remove loc := by
  have hLocate : fs.locate path = .ok loc :=
    locate_eq_ok_iff.mpr
      ((resolve_eq_present_iff_leadsTo h.directory).mpr ⟨hCheck, h⟩)
  simp [removeAt, hLocate]

theorem home_removeAt
    (path : String)
    (fs : FileSystem) :
    (removeAt path fs).home = fs.home := by
  unfold removeAt
  split <;> rfl

/- Without links nothing else than what is at a path is removed. -/
theorem entryAt?_removeAt
    {fs : FileSystem}
    {path name : String}
    {dir : Location}
    (hLinks : NoLinks fs)
    (hPath : destination fs.home path = dir ++ [name])
    (loc : Location) :
    (removeAt path fs).entryAt? loc = fs.entryAt? loc ∨
      dir ++ [name] <+: loc ∧
        (removeAt path fs).entryAt? loc = none := by
  unfold removeAt
  cases hLocate : fs.locate path with
  | error e => exact Or.inl rfl
  | ok found =>
      have hFound :=
        location_of_resolve hLinks (locate_eq_ok_iff.mp hLocate)
      rw [hPath] at hFound
      have hEq : found = dir ++ [name] := hFound
      subst hEq
      simp only [FileSystem.entryAt?_remove]
      split
      · rename_i hPrefix
        exact Or.inr ⟨hPrefix, rfl⟩
      · exact Or.inl rfl

------------------------------------------------------------
-- The Parts of Writing
------------------------------------------------------------

namespace ArtifactSet

variable {set : ArtifactSet} {root : String} {fs : FileSystem}

/- The files of a set are published, and the rest is removed. -/
def publishAndClear
    (set : ArtifactSet)
    (root staging : String) : Writing (List String) := do
  Writing.andFinally (set.publish root staging) (removeAt staging)
  pure (set.places root)

/- A set is published once its staging directory is there. -/
theorem writeAll_of_staging
    {grown started : FileSystem}
    {staging : String}
    (hChecks : checkPaths fs root set.paths = .ok ())
    (hFiles : set.isEmpty = false)
    (hParent : createDirectories (stagingParent root) fs =
      .ok () grown)
    (hStaging : makeStaging (stagingParent root) (set.mentioned root)
      grown = .ok staging started) :
    set.writeAll root fs = set.publishAndClear root staging started := by
  unfold mentioned at hStaging
  simp [writeAll, bind, EStateM.bind, Writing.inspect, hChecks, hFiles,
    hParent, hStaging, publishAndClear]

/- Nothing is done for an empty set. -/
theorem writeAll_of_files_eq_nil (h : set.files = []) :
    set.writeAll root fs = .ok [] fs := by
  have hPaths : set.paths = [] := by simp [paths, Keyed.keys, h]
  have hEmpty : set.isEmpty = true := by simp [isEmpty, h]
  simp [writeAll, bind, EStateM.bind, Writing.inspect, hPaths,
    checkPaths, hEmpty, pure, EStateM.pure]

/- How far writing a set of files gets. -/
theorem writeAll_cases
    (set : ArtifactSet)
    (root : String)
    (fs : FileSystem) :
    (∃ e, checkPaths fs root set.paths = .error e ∧
      set.writeAll root fs = .error e fs) ∨
    (set.isEmpty = true ∧ set.writeAll root fs = .ok [] fs) ∨
    (checkPaths fs root set.paths = .ok () ∧
      ∃ e, set.writeAll root fs = .error e
        (Writing.final (createDirectories (stagingParent root)) fs)) ∨
    ∃ grown base name, HasStaging set root fs grown base name ∧
      set.writeAll root fs =
        set.publishAndClear root
          (Path.join (stagingParent root) name)
          (grown.withStaging base name) := by
  cases hChecks : checkPaths fs root set.paths with
  | error e =>
      refine Or.inl ⟨e, rfl, ?_⟩
      simp [writeAll, bind, EStateM.bind, Writing.inspect, hChecks]
  | ok u =>
      right
      by_cases hEmpty : set.isEmpty = true
      · left
        refine ⟨hEmpty, ?_⟩
        simp [writeAll, bind, EStateM.bind, Writing.inspect, hChecks,
          hEmpty, pure, EStateM.pure]
      right
      cases hParent : createDirectories (stagingParent root) fs with
      | error e grown =>
          left
          refine ⟨rfl, e, ?_⟩
          rw [Writing.final_of_error hParent]
          simp [writeAll, bind, EStateM.bind, Writing.inspect, hChecks,
            hEmpty, hParent]
      | ok u grown =>
          cases hStaging : makeStaging (stagingParent root)
              (set.mentioned root) grown with
          | error e made =>
              left
              refine ⟨rfl, e, ?_⟩
              rcases makeStaging_eq_error hStaging with rfl
              rw [Writing.final_of_ok hParent]
              unfold mentioned at hStaging
              simp [writeAll, bind, EStateM.bind, Writing.inspect,
                hChecks, hEmpty, hParent, hStaging]
          | ok staging made =>
              right
              rcases makeStaging_eq_ok hStaging with
                ⟨base, name, hIs, rfl, -, rfl⟩
              exact ⟨grown, base, name,
                ⟨hChecks, hParent, hStaging, hIs⟩,
                writeAll_of_staging hChecks (by simpa using hEmpty)
                  hParent hStaging⟩

/- What has been staged is moved all at once or one by one. -/
theorem publish_of_staged
    {staging : String}
    {staged : FileSystem}
    (hStage : stageFiles staging set.files fs = .ok () staged) :
    set.publish root staging fs =
      if staged.exists? root then
        moveFiles staging root set.paths staged
      else
        Writing.perform (.rootNotMoved root)
          (·.rename staging root) staged := by
  have hGet : (get : Writing FileSystem) staged = .ok staged staged :=
    rfl
  by_cases hExists : staged.exists? root = true
  · simp [publish, bind, EStateM.bind, hStage, hExists, hGet]
  · simp [publish, bind, EStateM.bind, hStage, hExists, hGet]

theorem publishAndClear_eq_ok_iff
    {staging : String}
    {fs' : FileSystem}
    {places : List String} :
    set.publishAndClear root staging fs = .ok places fs' ↔
      places = set.places root ∧
        ∃ published, set.publish root staging fs = .ok () published ∧
          fs' = removeAt staging published := by
  unfold publishAndClear
  rw [Writing.bind_eq_ok_iff]
  constructor
  · rintro ⟨⟨⟩, middle, hClear, hPlaces⟩
    rcases Writing.andFinally_eq_ok_iff.mp hClear with
      ⟨published, hPublish, rfl⟩
    have hBoth :
        set.places root = places ∧ removeAt staging published = fs' := by
      simpa [pure, EStateM.pure] using hPlaces
    rcases hBoth with ⟨rfl, rfl⟩
    exact ⟨rfl, published, hPublish, rfl⟩
  · rintro ⟨rfl, published, hPublish, rfl⟩
    exact ⟨(), _, Writing.andFinally_eq_ok_iff.mpr
      ⟨published, hPublish, rfl⟩, rfl⟩

theorem publishAndClear_eq_error_iff
    {staging : String}
    {fs' : FileSystem}
    {e : WriteError} :
    set.publishAndClear root staging fs = .error e fs' ↔
      ∃ published, set.publish root staging fs = .error e published ∧
        fs' = removeAt staging published := by
  unfold publishAndClear
  rw [Writing.bind_eq_error_iff]
  constructor
  · rintro (hClear | ⟨⟨⟩, middle, -, hPlaces⟩)
    · exact Writing.andFinally_eq_error_iff.mp hClear
    · simp [pure, EStateM.pure] at hPlaces
  · intro h
    exact Or.inl (Writing.andFinally_eq_error_iff.mpr h)

theorem final_publishAndClear
    (staging : String) :
    Writing.final (set.publishAndClear root staging) fs =
      removeAt staging
        (Writing.final (set.publish root staging) fs) := by
  cases hPublish : set.publish root staging fs with
  | ok u published =>
      rw [Writing.final_of_ok hPublish]
      exact Writing.final_of_ok (publishAndClear_eq_ok_iff.mpr
        ⟨rfl, published, hPublish, rfl⟩)
  | error e published =>
      rw [Writing.final_of_error hPublish]
      exact Writing.final_of_error (publishAndClear_eq_error_iff.mpr
        ⟨published, hPublish, rfl⟩)

end ArtifactSet

------------------------------------------------------------
-- Moving What Has Been Staged
------------------------------------------------------------

/- A staged set is ready to be moved. -/
theorem IsStaged.isMoving
    {set : ArtifactSet}
    {root name : String}
    {fs grown staged : FileSystem}
    {base : Location}
    (h : IsStaged set root fs grown base name staged)
    (hLinks : NoLinks fs)
    (hRoot : root ≠ "") :
    IsMoving staged (Path.join (stagingParent root) name) root
      (base ++ [name]) (destination fs.home root) set.paths where
  noLinks := h.noLinks hLinks
  stagingNe := h.staging_ne_empty
  rootNe := hRoot
  staged := h.leadsToStaging
  target_eq := by rw [h.home]
  inside := h.inside
  noDirectory path hPath := by
    rcases h.exists_entryAt? hPath with ⟨content, -, hEntry⟩
    rw [hEntry]
    simp
  apart path hPath loc hOn := by
    rw [h.home] at hOn
    exact h.not_prefix_of_onWay
      (ArtifactSet.names_append_subset hPath) hOn

theorem HasStaging.writeAll_eq
    {set : ArtifactSet}
    {root name : String}
    {fs grown : FileSystem}
    {base : Location}
    (h : HasStaging set root fs grown base name)
    (hFiles : set.files ≠ []) :
    set.writeAll root fs =
      set.publishAndClear root
        (Path.join (stagingParent root) name)
        (grown.withStaging base name) :=
  ArtifactSet.writeAll_of_staging h.checks
    (by simpa [ArtifactSet.isEmpty] using hFiles) h.parent h.made

theorem HasStaging.writeAll_eq_ok
    {set : ArtifactSet}
    {root name : String}
    {fs grown published : FileSystem}
    {base : Location}
    (h : HasStaging set root fs grown base name)
    (hFiles : set.files ≠ [])
    (hPublish :
      set.publish root (Path.join (stagingParent root) name)
        (grown.withStaging base name) = .ok () published) :
    set.writeAll root fs = .ok (set.places root)
      (removeAt (Path.join (stagingParent root) name) published) := by
  rw [h.writeAll_eq hFiles]
  exact ArtifactSet.publishAndClear_eq_ok_iff.mpr
    ⟨rfl, published, hPublish, rfl⟩

theorem IsStaged.publish_eq_moveFiles
    {set : ArtifactSet}
    {root name : String}
    {fs grown staged : FileSystem}
    {base : Location}
    (h : IsStaged set root fs grown base name staged)
    (hExists : staged.exists? root = true) :
    set.publish root (Path.join (stagingParent root) name)
        (grown.withStaging base name) =
      moveFiles (Path.join (stagingParent root) name) root set.paths
        staged := by
  rw [ArtifactSet.publish_of_staged h.stage, if_pos hExists]

/- A set that is published has been staged. -/
theorem HasStaging.publish_cases
    {set : ArtifactSet}
    {root name : String}
    {fs grown : FileSystem}
    {base : Location}
    (h : HasStaging set root fs grown base name) :
    (∃ e staged,
      FillsBelow (base ++ [name]) (grown.withStaging base name)
        staged ∧
      set.publish root (Path.join (stagingParent root) name)
        (grown.withStaging base name) = .error e staged) ∨
    ∃ staged, IsStaged set root fs grown base name staged ∧
      set.publish root (Path.join (stagingParent root) name)
          (grown.withStaging base name) =
        if staged.exists? root then
          moveFiles (Path.join (stagingParent root) name) root
            set.paths staged
        else
          Writing.perform (.rootNotMoved root)
            (·.rename (Path.join (stagingParent root) name) root)
            staged := by
  cases hStage : stageFiles (Path.join (stagingParent root) name)
      set.files (grown.withStaging base name) with
  | error e staged =>
      have hFills := h.stageFiles_fills
      rw [Writing.final_of_error hStage] at hFills
      refine Or.inl ⟨e, staged, hFills, ?_⟩
      simp [ArtifactSet.publish, bind, EStateM.bind, hStage]
  | ok u staged =>
      exact Or.inr ⟨staged, ⟨h, hStage⟩,
        ArtifactSet.publish_of_staged hStage⟩

/-
  Whatever has been published or not, no file outside the
  output directory has changed, and what is left in the staging
  directory can be removed.
-/
structure LeavesOnlyStaging
    (staging : String)
    (source target : Location)
    (fs fs' : FileSystem) : Prop where
  noLinks : NoLinks fs'
  spares : SparesFiles source target fs fs'
  left : fs'.LeadsTo staging source ∨
    ∀ loc, source <+: loc → fs'.entryAt? loc = none

theorem FillsBelow.sparesFiles
    {fs fs' : FileSystem}
    {base : Location}
    (h : FillsBelow base fs fs')
    (target : Location) :
    SparesFiles base target fs fs' := by
  refine ⟨h.keeps.home, fun loc hLoc _ content => ?_⟩
  rw [h.outside loc hLoc]

namespace HasStaging

variable {set : ArtifactSet} {root name : String}
variable {fs grown : FileSystem} {base : Location}

/- Publishing a set touches no file outside the output directory. -/
theorem publish_spares
    (h : HasStaging set root fs grown base name)
    (hLinks : NoLinks fs) :
    LeavesOnlyStaging (Path.join (stagingParent root) name)
      (base ++ [name]) (destination fs.home root)
      (grown.withStaging base name)
      (Writing.final
        (set.publish root (Path.join (stagingParent root) name))
        (grown.withStaging base name)) := by
  rcases h.publish_cases with ⟨e, staged, hFills, hPublish⟩ |
    ⟨staged, hStaged, hPublish⟩
  · rw [Writing.final_of_error hPublish]
    exact ⟨(h.noLinks_withStaging hLinks).fills hFills,
      hFills.sparesFiles _, Or.inl (h.leadsTo.mono hFills.keeps)⟩
  have hSpares := hStaged.fills.sparesFiles (destination fs.home root)
  by_cases hExists : staged.exists? root = true
  · rw [if_pos hExists] at hPublish
    rcases moveFiles_spares
        (hStaged.isMoving hLinks (ne_empty_of_exists? hExists))
        (fun path hPath => hPath) with
      ⟨hMoving, hMoved⟩
    have hFinal :
        Writing.final
            (set.publish root (Path.join (stagingParent root) name))
            (grown.withStaging base name) =
          Writing.final
            (moveFiles (Path.join (stagingParent root) name) root
              set.paths) staged := by
      unfold Writing.final
      rw [hPublish]
    rw [hFinal]
    exact ⟨hMoving.noLinks, hSpares.trans hMoved,
      Or.inl hMoving.staged⟩
  · rw [if_neg hExists] at hPublish
    cases hRename : staged.rename (Path.join (stagingParent root) name)
        root with
    | error cause =>
        rw [Writing.perform_eq_error_iff.mpr
          ⟨cause, hRename, rfl, rfl⟩] at hPublish
        rw [Writing.final_of_error hPublish]
        exact ⟨hStaged.noLinks hLinks, hSpares,
          Or.inl hStaged.leadsToStaging⟩
    | ok after =>
        rw [Writing.perform_eq_ok_iff.mpr hRename] at hPublish
        rw [Writing.final_of_ok hPublish]
        rcases rename_hasBecome
            (hStaged.noLinks hLinks) hStaged.leadsToStaging
            (by rw [hStaged.home]) h.not_prefix_destination hRename with
          ⟨-, hBecome⟩
        refine ⟨hBecome.noLinks (hStaged.noLinks hLinks),
          hSpares.trans ⟨hBecome.home, ?_⟩, Or.inr hBecome.gone⟩
        intro loc hSource hTarget content
        rw [hBecome.kept loc hSource hTarget]

/- What is where once the rest has been removed. -/
theorem entryAt?_publishAndClear
    (h : HasStaging set root fs grown base name)
    (hLinks : NoLinks fs)
    (loc : Location) :
    (Writing.final
        (set.publishAndClear root (Path.join (stagingParent root) name))
        (grown.withStaging base name)).entryAt? loc =
      if base ++ [name] <+: loc then none
      else
        (Writing.final
          (set.publish root (Path.join (stagingParent root) name))
          (grown.withStaging base name)).entryAt? loc := by
  rw [ArtifactSet.final_publishAndClear]
  have hLeaves := h.publish_spares hLinks
  revert hLeaves
  generalize Writing.final
    (set.publish root (Path.join (stagingParent root) name))
    (grown.withStaging base name) = published
  intro hLeaves
  have hStaging :
      destination published.home (Path.join (stagingParent root) name) =
        base ++ [name] := by
    rw [hLeaves.spares.home]
    exact (h.leadsTo.eq_destination (h.noLinks_withStaging hLinks)).symm
  have hRemove := entryAt?_removeAt hLeaves.noLinks hStaging loc
  by_cases hSource : base ++ [name] <+: loc
  · rw [if_pos hSource]
    rcases hLeaves.left with hLeads | hNone
    · rw [removeAt_of_leadsTo h.isStaging.check hLeads,
        FileSystem.entryAt?_remove, if_pos hSource]
    · rcases hRemove with hSame | ⟨-, hGone⟩
      · rw [hSame, hNone loc hSource]
      · exact hGone
  · rw [if_neg hSource]
    rcases hRemove with hSame | ⟨hPrefix, -⟩
    · exact hSame
    · exact absurd hPrefix hSource

/- Outside of the output directory no file has changed in the end. -/
theorem publishAndClear_spares
    (h : HasStaging set root fs grown base name)
    (hLinks : NoLinks fs)
    {loc : Location}
    (hLoc : ¬ destination fs.home root <+: loc)
    (content : ByteArray) :
    (Writing.final
        (set.publishAndClear root (Path.join (stagingParent root) name))
        (grown.withStaging base name)).entryAt? loc =
          some (.file content) ↔
      fs.entryAt? loc = some (.file content) := by
  rw [h.entryAt?_publishAndClear hLinks]
  by_cases hSource : base ++ [name] <+: loc
  · rw [if_pos hSource, h.none_of_isPrefix hSource]
  · rw [if_neg hSource,
      (h.publish_spares hLinks).spares.same loc hSource hLoc,
      withStaging, h.isStaging.entryAt?_put, if_neg]
    · have hSpares := SparesFiles.of_grows (base ++ [name])
        (destination fs.home root) h.grows
      exact hSpares.same loc hSource hLoc content
    · rintro rfl
      exact hSource (List.prefix_refl _)

end HasStaging

end Bindery

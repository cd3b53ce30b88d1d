import Bindery.App
import Bindery.Proofs.Sequence
import Bindery.Proofs.Target.Discovery
import Bindery.Proofs.Target.Registration

/-
  This file says which targets an application has: those that
  come with the program and then those found on search paths,
  unless one of the search paths cannot be searched.

  Key definitions include:
    * `Discovers`
    * `definitions`
    * `App.Assembles`

  Key theorems include:
    * `outcome_setUpAll_directories`
    * `setUpAll_directories_eq_error_iff`
    * `App.withSearchPaths_outcome_iff`
-/

namespace Bindery

------------------------------------------------------------
-- Definitions of Targets
------------------------------------------------------------

/- Whether the targets in a directory can be found. -/
def Discovers
    (fs : FileSystem)
    (path : String) : Prop :=
  ∃ found, discover fs path = .ok found

/- What is found in a directory; nothing if it cannot be searched. -/
def foundIn
    (fs : FileSystem)
    (path : String) : List (String × Manifest) :=
  (discover fs path).toOption.getD []

/- The registration of a target that comes with the program. -/
def builtinDefinition (target : BuiltinTarget) : String × Registration :=
  (target.id, ⟨target.id, target.generate⟩)

/- The registration of a target that is found on a search path. -/
def foundDefinition
    (path : String)
    (entry : String × Manifest) : String × Registration :=
  (entry.2.name, ⟨path, (entry.2.toTarget entry.1).generate⟩)

/- The registrations of the targets on a search path. -/
def definitionsIn
    (fs : FileSystem)
    (path : String) : History :=
  (foundIn fs path).map (foundDefinition path)

/- All registrations in order; built-in targets come first. -/
def definitions
    (fs : FileSystem)
    (paths : List String) : History :=
  Builtin.targets.map builtinDefinition ++
    paths.flatMap (definitionsIn fs)

section Setup

variable {fs : FileSystem} {path : String} {paths : List String}
variable {registry : Registry} {e : GenerationError}

theorem foundIn_of_ok
    {found : List (String × Manifest)}
    (h : discover fs path = .ok found) :
    foundIn fs path = found := by
  simp [foundIn, h, Except.toOption]

------------------------------------------------------------
-- Setting Plugins Up
------------------------------------------------------------

/- Found targets are registered one after the other. -/
theorem outcome_registerFound
    (plugin : String)
    (found : List (String × Manifest))
    (registry : Registry) :
    (registerFound plugin found registry).outcome =
      .ok (registry.insertAll (found.map (foundDefinition plugin))) := by
  induction found generalizing registry with
  | nil => rfl
  | cons entry rest ih => exact ih _

/- Built-in targets are always set up. -/
theorem outcome_setUpAll_builtin
    (fs : FileSystem)
    (targets : List BuiltinTarget)
    (rest : List Plugin)
    (registry : Registry) :
    (App.setUpAll fs (targets.map Plugin.ofBuiltin ++ rest)
        registry).outcome =
      (App.setUpAll fs rest
        (registry.insertAll (targets.map builtinDefinition))).outcome := by
  induction targets generalizing registry with
  | nil => rfl
  | cons target others ih =>
      rw [List.map_cons, List.cons_append, App.setUpAll,
        Traced.outcome_bind]
      exact ih _

/- The targets on a search path are set up if they can be found. -/
theorem outcome_setUpAll_cons_of_ok
    (h : Discovers fs path)
    (rest : List Plugin)
    (registry : Registry) :
    (App.setUpAll fs (Plugin.ofDirectory path :: rest) registry).outcome =
      (App.setUpAll fs rest
        (registry.insertAll (definitionsIn fs path))).outcome := by
  rcases h with ⟨found, hFound⟩
  have hSetUp : ((Plugin.ofDirectory path).setUp fs registry).outcome =
      .ok (registry.insertAll (definitionsIn fs path)) := by
    have hSetup : ((Plugin.ofDirectory path).setup fs registry).outcome =
        .ok (registry.insertAll (found.map (foundDefinition path))) := by
      simp only [Plugin.ofDirectory, Traced.outcome_bind,
        Traced.outcome_ofExcept, hFound, Except.bind,
        outcome_registerFound]
    rw [definitionsIn, foundIn_of_ok hFound, Plugin.setUp,
      Traced.outcome_bind]
    simp only [Traced.outcome_emit, Except.bind, Traced.mapError, hSetup]
  rw [App.setUpAll, Traced.outcome_bind, hSetUp]
  rfl

/- A search path that cannot be searched is what fails. -/
theorem outcome_setUpAll_cons_of_error
    (h : discover fs path = .error e)
    (rest : List Plugin)
    (registry : Registry) :
    (App.setUpAll fs (Plugin.ofDirectory path :: rest) registry).outcome =
      .error (.pluginSetup path e) := by
  have hSetUp : ((Plugin.ofDirectory path).setUp fs registry).outcome =
      .error (.pluginSetup path e) := by
    rw [Plugin.setUp, Traced.outcome_bind]
    simp only [Traced.outcome_emit, Except.bind, Traced.mapError,
      Plugin.ofDirectory, Traced.outcome_bind, Traced.outcome_ofExcept, h]
  rw [App.setUpAll, Traced.outcome_bind, hSetUp]
  rfl

/- If all search paths can be searched, all targets are set up. -/
theorem outcome_setUpAll_directories
    (h : ∀ path ∈ paths, Discovers fs path)
    (registry : Registry) :
    (App.setUpAll fs (paths.map Plugin.ofDirectory) registry).outcome =
      .ok (registry.insertAll (paths.flatMap (definitionsIn fs))) := by
  induction paths generalizing registry with
  | nil => rfl
  | cons path rest ih =>
      rcases List.forall_mem_cons.mp h with ⟨hPath, hRest⟩
      rw [List.map_cons, outcome_setUpAll_cons_of_ok hPath, ih hRest,
        List.flatMap_cons, Registry.insertAll_append]

/- Nothing is set up unless all search paths can be searched. -/
theorem discovers_of_setUpAll
    {result : Registry}
    (h : (App.setUpAll fs (paths.map Plugin.ofDirectory)
        registry).outcome = .ok result) :
    ∀ path ∈ paths, Discovers fs path := by
  induction paths generalizing registry with
  | nil => simp
  | cons first rest ih =>
      rw [List.map_cons] at h
      cases hFirst : discover fs first with
      | ok found =>
          have hDiscovers : Discovers fs first := ⟨found, hFirst⟩
          rw [outcome_setUpAll_cons_of_ok hDiscovers] at h
          exact List.forall_mem_cons.mpr ⟨hDiscovers, ih h⟩
      | error cause =>
          rw [outcome_setUpAll_cons_of_error hFirst] at h
          cases h

/- The first search path that cannot be searched is what fails. -/
theorem setUpAll_directories_eq_error_iff :
    (App.setUpAll fs (paths.map Plugin.ofDirectory) registry).outcome =
        .error e ↔
      ∃ before path after, paths = before ++ path :: after ∧
        (∀ earlier ∈ before, Discovers fs earlier) ∧
        ∃ cause, discover fs path = .error cause ∧
          e = .pluginSetup path cause := by
  induction paths generalizing registry with
  | nil => simp [App.setUpAll]
  | cons first rest ih =>
      rw [List.map_cons, exists_first_cons_iff]
      cases hFirst : discover fs first with
      | ok found =>
          have hDiscovers : Discovers fs first := ⟨found, hFirst⟩
          rw [outcome_setUpAll_cons_of_ok hDiscovers, ih]
          simp [hDiscovers]
      | error cause =>
          have hNot : ¬ Discovers fs first := by
            rintro ⟨found, hFound⟩
            simp [hFirst] at hFound
          rw [outcome_setUpAll_cons_of_error hFirst]
          simp [hNot, eq_comm]

end Setup

------------------------------------------------------------
-- Applications
------------------------------------------------------------

/- The ids of the targets that come with the program, in order. -/
def builtinIds : List String :=
  ["cpp", "golang", "typescript"]

/- The names in the manifests on a search path, in order. -/
def foundIds
    (fs : FileSystem)
    (path : String) : List String :=
  (foundIn fs path).map fun entry => entry.2.name

theorem ids_definitions
    (fs : FileSystem)
    (paths : List String) :
    (definitions fs paths).ids =
      builtinIds ++ paths.flatMap (foundIds fs) := by
  have hFound : ∀ path, (definitionsIn fs path).map Prod.fst =
      foundIds fs path := by
    intro path
    simp [definitionsIn, foundIds, foundDefinition, Function.comp_def]
  rw [definitions, History.ids_append]
  change builtinIds ++ List.map Prod.fst _ = _
  rw [List.map_flatMap]
  simp only [hFound]

namespace App

variable {fs : FileSystem} {paths : List String} {e : GenerationError}

/-
  What an application is made of: the registry reflects all
  definitions of targets, so that the last one of each target
  counts, while a target stays where it came first in the list.
  On each search path the targets are those of the entries with
  manifests, in the order of their names.
-/
structure Assembles
    (app : App)
    (fs : FileSystem)
    (paths : List String) : Prop where
  reflects : app.registry.Reflects (definitions fs paths)
  targets : app.registry.targets =
    builtinIds ++
      ((paths.flatMap (foundIds fs)).filter (· ∉ builtinIds)).eraseDups
  stays : ∀ before after : History,
    definitions fs paths = before ++ after →
    before.ids.eraseDups <+: app.registry.targets
  found : ∀ path ∈ paths, ∃ listed names : List String,
    fs.listDirectory path = .ok listed ∧
      names.Perm (listed.filter fun name =>
        fs.isFile (manifestPath (Path.join path name))) ∧
      names.Pairwise (· ≤ ·) ∧
      (foundIn fs path).map Prod.fst = names.map (Path.join path)

theorem assembles_insertAll (h : ∀ path ∈ paths, Discovers fs path) :
    Assembles ⟨Registry.empty.insertAll (definitions fs paths)⟩
      fs paths where
  reflects := Registry.reflects_insertAll _
  targets := by
    have hBuiltin : builtinIds.eraseDups = builtinIds := by decide
    have hNew : ∀ ids : List String, ids.removeAll builtinIds =
        ids.filter (· ∉ builtinIds) := by
      intro ids
      simp [List.removeAll]
    rw [Registry.targets_insertAll, ids_definitions,
      List.eraseDups_append, hBuiltin, hNew]
  stays := by
    rintro before after hSplit
    rw [Registry.targets_insertAll, hSplit, History.ids_append,
      List.eraseDups_append]
    exact List.prefix_append _ _
  found := by
    intro path hPath
    rcases h path hPath with ⟨found, hFound⟩
    rw [foundIn_of_ok hFound]
    exact discover_ordered hFound

/- Built-in targets are set up first, then those on search paths. -/
theorem outcome_withSearchPaths
    (fs : FileSystem)
    (paths : List String) :
    (withSearchPaths fs paths).outcome =
      (setUpAll fs (paths.map Plugin.ofDirectory)
        (Registry.empty.insertAll
          (Builtin.targets.map builtinDefinition))).outcome.map App.mk := by
  rw [withSearchPaths, build, Traced.outcome_bind, builtinPlugins,
    outcome_setUpAll_builtin]
  rfl

/-
  Built-in targets and those on search paths make an application
  exactly if all search paths can be searched.  Otherwise the
  first one that cannot be searched is what fails.
-/
theorem withSearchPaths_outcome_iff
    (fs : FileSystem)
    (paths : List String) :
    (∀ e, (withSearchPaths fs paths).outcome = .error e ↔
      ∃ before path after, paths = before ++ path :: after ∧
        (∀ earlier ∈ before, Discovers fs earlier) ∧
        ∃ cause, discover fs path = .error cause ∧
          e = .pluginSetup path cause) ∧
    (∀ app, (withSearchPaths fs paths).outcome = .ok app ↔
      (∀ path ∈ paths, Discovers fs path) ∧
        app.Assembles fs paths) := by
  rw [outcome_withSearchPaths]
  generalize hStart : Registry.empty.insertAll
    (Builtin.targets.map builtinDefinition) = start
  refine ⟨fun e => ?_, fun app => ⟨fun hOk => ?_, ?_⟩⟩
  · rw [← @setUpAll_directories_eq_error_iff fs paths start]
    cases (setUpAll fs (paths.map Plugin.ofDirectory) start).outcome <;>
      simp [Except.map]
  · cases hSetUp : (setUpAll fs (paths.map Plugin.ofDirectory)
        start).outcome with
    | error cause => simp [hSetUp, Except.map] at hOk
    | ok registry =>
        have hAll := discovers_of_setUpAll hSetUp
        rw [outcome_setUpAll_directories hAll, ← hStart,
          ← Registry.insertAll_append] at hOk
        cases hOk
        exact ⟨hAll, assembles_insertAll hAll⟩
  · rintro ⟨hAll, hApp⟩
    have hSame := hApp.reflects.unique
      (Registry.reflects_insertAll (definitions fs paths))
    rw [outcome_setUpAll_directories hAll, ← hStart,
      ← Registry.insertAll_append]
    cases app
    cases hSame
    rfl

end App

end Bindery

import Bindery.Proofs.Artifact.Insertion
import Bindery.Proofs.Sequence
import Bindery.Target.TemplateTarget

/-
  This file says what a target made of templates and support
  files generates: which files, in which order, with which
  contents, and which error if there is none.

  Key definitions include:
    * `TemplateSet.Renders`
    * `TemplateSet.renderedFile`
    * `TemplateTarget.support`
    * `IsLastFor`

  Key theorems include:
    * `TemplateSet.outcome_renderFrom`
    * `TemplateSet.renderFrom_eq_error_iff`
    * `TemplateTarget.outcome_generate`
    * `TemplateTarget.generate_outcome_iff`
-/

namespace Bindery

------------------------------------------------------------
-- Rendering Templates in Order
------------------------------------------------------------

namespace TemplateSet

variable {set : TemplateSet} {fs : FileSystem}
variable {globals : Template.Globals} {names : List String}
variable {artifacts : ArtifactSet} {e : GenerationError}

/- Whether a template can be rendered. -/
def Renders
    (set : TemplateSet)
    (fs : FileSystem)
    (globals : Template.Globals)
    (name : String) : Prop :=
  ∃ content, set.renderOne fs globals name = .ok content

/- The file that a template which can be rendered is rendered to. -/
def renderedFile
    (set : TemplateSet)
    (fs : FileSystem)
    (globals : Template.Globals)
    (name : String) : String × String :=
  (artifactPath name,
    (set.renderOne fs globals name).toOption.getD "")

theorem renderedFile_of_ok
    {name content : String}
    (h : set.renderOne fs globals name = .ok content) :
    set.renderedFile fs globals name = (artifactPath name, content) := by
  simp [renderedFile, h, Except.toOption]

/- Rendering goes on after a template that can be rendered. -/
theorem outcome_renderFrom_cons
    (set : TemplateSet)
    (fs : FileSystem)
    (globals : Template.Globals)
    (name : String)
    (rest : List String)
    (artifacts : ArtifactSet) :
    (set.renderFrom fs globals (name :: rest) artifacts).outcome =
      match set.renderOne fs globals name with
      | .ok content =>
          (set.renderFrom fs globals rest
            (artifacts.insert (artifactPath name) content)).outcome
      | .error e => .error e := by
  rw [renderFrom]
  cases h : set.renderOne fs globals name with
  | ok content => simp [Except.bind]
  | error e => simp [Except.bind]

theorem outcome_renderFrom_cons_of_ok
    {name content : String}
    (h : set.renderOne fs globals name = .ok content)
    (rest : List String)
    (artifacts : ArtifactSet) :
    (set.renderFrom fs globals (name :: rest) artifacts).outcome =
      (set.renderFrom fs globals rest
        (artifacts.insert (artifactPath name) content)).outcome := by
  rw [outcome_renderFrom_cons, h]

theorem outcome_renderFrom_cons_of_error
    {name : String}
    (h : set.renderOne fs globals name = .error e)
    (rest : List String)
    (artifacts : ArtifactSet) :
    (set.renderFrom fs globals (name :: rest) artifacts).outcome =
      .error e := by
  rw [outcome_renderFrom_cons, h]

/- If all templates can be rendered, their files are inserted. -/
theorem outcome_renderFrom
    (artifacts : ArtifactSet)
    (h : ∀ name ∈ names, set.Renders fs globals name) :
    (set.renderFrom fs globals names artifacts).outcome =
      .ok (artifacts.insertAll
        (names.map (set.renderedFile fs globals))) := by
  induction names generalizing artifacts with
  | nil => rfl
  | cons name rest ih =>
      rcases List.forall_mem_cons.mp h with ⟨⟨content, hName⟩, hRest⟩
      rw [outcome_renderFrom_cons, hName, List.map_cons,
        renderedFile_of_ok hName, ArtifactSet.insertAll_cons]
      exact ih _ hRest

/- The first template that cannot be rendered is what fails. -/
theorem renderFrom_eq_error_iff :
    (set.renderFrom fs globals names artifacts).outcome = .error e ↔
      ∃ before name after, names = before ++ name :: after ∧
        (∀ earlier ∈ before, set.Renders fs globals earlier) ∧
        set.renderOne fs globals name = .error e := by
  induction names generalizing artifacts with
  | nil => simp [renderFrom]
  | cons first rest ih =>
      rw [outcome_renderFrom_cons, exists_first_cons_iff]
      cases hFirst : set.renderOne fs globals first with
      | ok content =>
          have hRenders : set.Renders fs globals first :=
            ⟨content, hFirst⟩
          simp [ih, hRenders]
      | error cause =>
          have hNot : ¬ set.Renders fs globals first := by
            rintro ⟨content, hContent⟩
            simp [hFirst] at hContent
          simp [hNot]

/- A set of templates is rendered if each of them can be. -/
theorem renderFrom_eq_ok_iff {result : ArtifactSet} :
    (set.renderFrom fs globals names artifacts).outcome = .ok result ↔
      (∀ name ∈ names, set.Renders fs globals name) ∧
        artifacts.insertAll
          (names.map (set.renderedFile fs globals)) = result := by
  constructor
  · intro h
    have hAll : ∀ name ∈ names, set.Renders fs globals name := by
      induction names generalizing artifacts with
      | nil => simp
      | cons first rest ih =>
          rw [outcome_renderFrom_cons] at h
          cases hFirst : set.renderOne fs globals first with
          | ok content =>
              rw [hFirst] at h
              exact List.forall_mem_cons.mpr ⟨⟨content, hFirst⟩, ih h⟩
          | error cause => simp [hFirst] at h
    rw [outcome_renderFrom artifacts hAll] at h
    exact ⟨hAll, Except.ok.inj h⟩
  · rintro ⟨hAll, rfl⟩
    exact outcome_renderFrom artifacts hAll

end TemplateSet

------------------------------------------------------------
-- The File That Counts
------------------------------------------------------------

/- Whether a name is the last one whose template is rendered to a path. -/
def IsLastFor
    (names : List String)
    (path name : String) : Prop :=
  ∃ before after, names = before ++ name :: after ∧
    artifactPath name = path ∧
    ∀ later ∈ after, artifactPath later ≠ path

namespace TemplateSet

variable {set : TemplateSet} {fs : FileSystem}
variable {globals : Template.Globals} {names : List String}

theorem paths_renderedFile
    (set : TemplateSet)
    (fs : FileSystem)
    (globals : Template.Globals)
    (names : List String) :
    (names.map (set.renderedFile fs globals)).map Prod.fst =
      names.map artifactPath := by
  simp [renderedFile, Function.comp_def]

/- The last template for a path gives its content. -/
theorem get?_reverse_renderedFile
    {path content : String}
    (h : ∀ name ∈ names, set.Renders fs globals name) :
    Keyed.get? path
        (names.map (set.renderedFile fs globals)).reverse =
          some content ↔
      ∃ name, IsLastFor names path name ∧
        set.renderOne fs globals name = .ok content := by
  rw [Keyed.get?_reverse_eq_some_iff]
  constructor
  · rintro ⟨before, after, hSplit, hAfter⟩
    rcases List.map_eq_append_iff.mp hSplit with
      ⟨front, back, rfl, -, hBack⟩
    rcases List.map_eq_cons_iff.mp hBack with
      ⟨name, tail, rfl, hFile, rfl⟩
    rcases h name (by simp) with ⟨text, hText⟩
    rw [renderedFile_of_ok hText] at hFile
    rcases Prod.mk.inj hFile with ⟨hPath, rfl⟩
    refine ⟨name, ⟨front, tail, rfl, hPath, ?_⟩, hText⟩
    intro later hLater hSame
    apply hAfter
    rw [Keyed.keys, paths_renderedFile, ← hSame]
    exact List.mem_map_of_mem hLater
  · rintro ⟨name, ⟨front, tail, rfl, rfl, hTail⟩, hText⟩
    refine ⟨front.map (set.renderedFile fs globals),
      tail.map (set.renderedFile fs globals), ?_, ?_⟩
    · rw [List.map_append, List.map_cons, renderedFile_of_ok hText]
    · rw [Keyed.keys, paths_renderedFile]
      intro hMem
      rcases List.mem_map.mp hMem with ⟨later, hLater, hSame⟩
      exact hTail later hLater hSame

end TemplateSet

------------------------------------------------------------
-- Generation
------------------------------------------------------------

namespace TemplateTarget

variable {target : TemplateTarget} {fs : FileSystem} {schema : Schema}

/- The support files of a target; none without their directory. -/
def support
    (target : TemplateTarget)
    (fs : FileSystem) : Except GenerationError ArtifactSet :=
  match target.runtime with
  | none => .ok .empty
  | some directory => (bundleRuntime fs directory).outcome

theorem support_of_runtime
    {directory : String}
    (h : target.runtime = some directory) :
    target.support fs = (bundleRuntime fs directory).outcome := by
  rw [support, h]

/- The variables that the templates of a target see. -/
def globalsOf (schema : Schema) : Template.Globals :=
  (RenderContext.ofSchema schema).globals

/- First the templates, then the support files on top of them. -/
theorem outcome_generate
    (target : TemplateTarget)
    (fs : FileSystem)
    (schema : Schema) :
    (target.generate fs schema).outcome =
      (target.templates.renderFrom fs (globalsOf schema)
          target.templates.names .empty).outcome.bind fun rendered =>
        (target.support fs).bind fun support =>
          .ok ⟨rendered.merge support, target.main⟩ := by
  have hBuild : ∀ ε, (RenderContext.build (ε := ε) schema).outcome =
      .ok (RenderContext.ofSchema schema) := fun _ => rfl
  rw [generate, Traced.outcome_bind, hBuild]
  simp only [Except.bind, Traced.outcome_bind, TemplateSet.render,
    support, globalsOf]
  cases target.runtime with
  | none => rfl
  | some directory =>
      simp only [Traced.outcome_bind, Traced.outcome_pure]
      rfl

/-
  What comes of templates and support files: the paths of the
  templates come first, and a support file counts more than a
  template, a later template more than an earlier one.
-/
structure Composes
    (target : TemplateTarget)
    (fs : FileSystem)
    (schema : Schema)
    (support : ArtifactSet)
    (generation : Generation) : Prop where
  main : generation.main = target.main
  paths : generation.artifacts.paths =
    (target.templates.names.map artifactPath).eraseDups ++
      support.paths.filter
        (· ∉ target.templates.names.map artifactPath)
  contents : ∀ path content,
    generation.artifacts.get? path = some content ↔
      support.get? path = some content ∨
        (support.get? path = none ∧
          ∃ name, IsLastFor target.templates.names path name ∧
            target.templates.renderOne fs (globalsOf schema) name =
              .ok content)

/- Templates that can be rendered and support files compose. -/
theorem composes_merge
    (support : ArtifactSet)
    (h : ∀ name ∈ target.templates.names,
      target.templates.Renders fs (globalsOf schema) name) :
    target.Composes fs schema support
      ⟨(ArtifactSet.empty.insertAll
          (target.templates.names.map
            (target.templates.renderedFile fs (globalsOf schema)))).merge
        support, target.main⟩ := by
  have hEmpty : ArtifactSet.empty.paths = [] := rfl
  have hPaths : (ArtifactSet.empty.insertAll
      (target.templates.names.map
        (target.templates.renderedFile fs (globalsOf schema)))).paths =
      (target.templates.names.map artifactPath).eraseDups := by
    rw [ArtifactSet.paths_insertAll, hEmpty,
      TemplateSet.paths_renderedFile]
    simp
  refine ⟨rfl, ?_, ?_⟩
  · rw [ArtifactSet.paths_merge, hPaths]
    simp only [List.mem_eraseDups]
  · intro path content
    have hNone : ArtifactSet.empty.get? path = none := rfl
    rw [ArtifactSet.get?_merge, Option.or_eq_some_iff,
      ArtifactSet.get?_insertAll, hNone, Option.or_none,
      TemplateSet.get?_reverse_renderedFile h]

/- Files that compose in the same way are the same. -/
theorem Composes.unique
    {support : ArtifactSet}
    {one other : Generation}
    (hOne : target.Composes fs schema support one)
    (hOther : target.Composes fs schema support other) :
    one = other := by
  have hArtifacts : one.artifacts = other.artifacts := by
    refine ArtifactSet.eq_of_paths_of_get? ?_ ?_
    · rw [hOne.paths, hOther.paths]
    · intro path
      apply Option.ext
      intro content
      rw [hOne.contents, hOther.contents]
  have hMain : one.main = other.main := by
    rw [hOne.main, hOther.main]
  cases one
  cases other
  cases hArtifacts
  cases hMain
  rfl

variable {generation : Generation} {e : GenerationError}

/- A target generates if its templates and support files are fine. -/
theorem generate_eq_ok_iff :
    (target.generate fs schema).outcome = .ok generation ↔
      (∀ name ∈ target.templates.names,
        target.templates.Renders fs (globalsOf schema) name) ∧
      ∃ support, target.support fs = .ok support ∧
        target.Composes fs schema support generation := by
  rw [outcome_generate]
  constructor
  · intro h
    cases hRender : (target.templates.renderFrom fs
        (globalsOf schema) target.templates.names .empty).outcome with
    | error cause => simp [hRender, Except.bind] at h
    | ok rendered =>
        cases hSupport : target.support fs with
        | error cause => simp [hRender, hSupport, Except.bind] at h
        | ok support =>
            have hEq : ⟨rendered.merge support, target.main⟩ =
                generation := by
              simpa [hRender, hSupport, Except.bind] using h
            rcases TemplateSet.renderFrom_eq_ok_iff.mp hRender with
              ⟨hAll, rfl⟩
            exact ⟨hAll, support, rfl,
              hEq ▸ composes_merge support hAll⟩
  · rintro ⟨hAll, support, hSupport, hGeneration⟩
    rw [TemplateSet.outcome_renderFrom _ hAll, hSupport,
      hGeneration.unique (composes_merge support hAll)]
    rfl

/- The first template that cannot be rendered fails first. -/
theorem generate_eq_error_iff :
    (target.generate fs schema).outcome = .error e ↔
      (∃ before name after,
        target.templates.names = before ++ name :: after ∧
        (∀ earlier ∈ before,
          target.templates.Renders fs (globalsOf schema) earlier) ∧
        target.templates.renderOne fs (globalsOf schema) name =
          .error e) ∨
      ((∀ name ∈ target.templates.names,
        target.templates.Renders fs (globalsOf schema) name) ∧
        target.support fs = .error e) := by
  have hFirst := @TemplateSet.renderFrom_eq_error_iff
    target.templates fs (globalsOf schema) target.templates.names .empty e
  rw [outcome_generate, ← hFirst]
  cases hRender : (target.templates.renderFrom fs (globalsOf schema)
      target.templates.names .empty).outcome with
  | error cause =>
      have hNotAll : ¬ ∀ name ∈ target.templates.names,
          target.templates.Renders fs (globalsOf schema) name := by
        intro hAll
        rw [TemplateSet.outcome_renderFrom _ hAll] at hRender
        simp at hRender
      simp [Except.bind, hNotAll]
  | ok rendered =>
      have hAll := (TemplateSet.renderFrom_eq_ok_iff.mp hRender).1
      cases hSupport : target.support fs with
      | error cause =>
          simpa [Except.bind] using fun _ => hAll
      | ok support => simp [Except.bind]

/-
  A target generates exactly if all its templates can be
  rendered and its support files bundled; what it generates is
  composed of them.  Otherwise the first template that cannot be
  rendered is what fails, and the support files only if there is
  none.
-/
theorem generate_outcome_iff
    (target : TemplateTarget)
    (fs : FileSystem)
    (schema : Schema) :
    (∀ generation,
      (target.generate fs schema).outcome = .ok generation ↔
        (∀ name ∈ target.templates.names,
          target.templates.Renders fs (globalsOf schema) name) ∧
        ∃ support, target.support fs = .ok support ∧
          target.Composes fs schema support generation) ∧
    (∀ e,
      (target.generate fs schema).outcome = .error e ↔
        (∃ before name after,
          target.templates.names = before ++ name :: after ∧
          (∀ earlier ∈ before,
            target.templates.Renders fs (globalsOf schema) earlier) ∧
          target.templates.renderOne fs (globalsOf schema) name =
            .error e) ∨
        ((∀ name ∈ target.templates.names,
          target.templates.Renders fs (globalsOf schema) name) ∧
          target.support fs = .error e)) :=
  ⟨fun _ => generate_eq_ok_iff, fun _ => generate_eq_error_iff⟩

end TemplateTarget

end Bindery

import Bindery.Target.RuntimeBundle
import Bindery.Target.TemplateSet

/-
  This file defines targets made of templates and support
  files.

  Key definitions include:
    * `Generation`
    * `Generator`
    * `TemplateTarget`
    * `TemplateTarget.generate`
-/

namespace Bindery

/- What is generated for a schema. -/
structure Generation where
  artifacts : ArtifactSet
  -- the path of the file to look at first
  main : String

/- How a generation is made from a schema and files. -/
abbrev Generator :=
  FileSystem → Schema → Traced GenerationError Generation

/- Templates, and perhaps a directory of support files. -/
structure TemplateTarget where
  templates : TemplateSet
  runtime : Option String
  main : String
deriving DecidableEq, Repr

namespace TemplateTarget

/- Render the templates and bundle the support files, which win. -/
def generate (target : TemplateTarget) : Generator := fun fs schema => do
  let c ← RenderContext.build schema
  let rendered ← target.templates.render fs c
  match target.runtime with
  | none => Traced.pure ⟨rendered, target.main⟩
  | some directory => do
      let bundle ← bundleRuntime fs directory
      Traced.pure ⟨rendered.merge bundle, target.main⟩

end TemplateTarget

end Bindery

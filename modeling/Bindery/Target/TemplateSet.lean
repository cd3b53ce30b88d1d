import Bindery.Artifact.Set
import Bindery.Files.FileSystem
import Bindery.RenderContext
import Bindery.Target.GenerationError
import Bindery.Template.Execution
import Bindery.Template.StmtReader

/-
  This file defines lists of templates in a directory, and the
  files that they are rendered to.

  Key definitions include:
    * `artifactPath`
    * `templatePath?`
    * `loadTemplate`
    * `TemplateSet`
    * `TemplateSet.render`
-/

namespace Bindery

------------------------------------------------------------
-- Paths
------------------------------------------------------------

/-
  The name of a file without its last ending.  Dots at the start
  of the name do not begin an ending.
-/
def dropEnding (base : List Char) : List Char :=
  let dots := base.takeWhile (· = '.')
  let stem := base.dropWhile (· = '.')
  match Text.splitLast ['.'] stem with
  | some (before, _) => dots ++ before
  | none => base

/- The path of the file that a template is rendered to. -/
def artifactPath (template : String) : String :=
  match Text.splitLast ['/'] template.toList with
  | some (directory, base) =>
      String.ofList (directory ++ '/' :: dropEnding base)
  | none => String.ofList (dropEnding template.toList)

/- Whether a segment of a template's name is refused. -/
def isRefusedSegment (segment : List Char) : Bool :=
  segment.head? = some '.' || segment.contains '\\'

/- Where a template lies, unless its name has a refused segment. -/
def templatePath?
    (directory name : String) : Option String :=
  let segments := Text.splitAt '/' name.toList
  if segments.any isRefusedSegment then none
  else
    some (segments.foldl
      (fun path segment => Path.join path (String.ofList segment))
      directory)

------------------------------------------------------------
-- Loading
------------------------------------------------------------

/- The text of a template in a directory. -/
def templateText
    (fs : FileSystem)
    (directory name : String) : Except TemplateError String :=
  match templatePath? directory name with
  | none => .error .notFound
  | some path =>
      match fs.readText path with
      | .ok text => .ok text
      | .error .notFound => .error .notFound
      | .error _ => .error .invalidOperation

/- The statements of a template in a directory. -/
def loadTemplate
    (fs : FileSystem)
    (directory : String) : Template.Loader := fun name => do
  let text ← templateText fs directory name
  Template.Stmt.ofTemplate text

------------------------------------------------------------
-- Rendering
------------------------------------------------------------

/- The variables that templates see. -/
def RenderContext.globals (c : RenderContext) : Template.Globals :=
  match c.toJson with
  | .object members =>
      members.map (fun (name, j) => (name, Template.Value.ofJson j))
  | _ => []

/- The names of templates in a directory, in order. -/
structure TemplateSet where
  directory : String
  names : List String
deriving DecidableEq, Repr

namespace TemplateSet

/- What a failure of one template means for the whole set. -/
def errorOf
    (set : TemplateSet)
    (name : String)
    (cause : TemplateError) : GenerationError :=
  if cause = .notFound then .templateNotFound name set.directory
  else .notRendered name cause

/- The event of a template being rendered. -/
def renderedEvent (name content : String) : Event :=
  ⟨.debug, .template, "rendered template",
    [("template", name), ("artifact", artifactPath name),
      ("bytes", toString content.utf8ByteSize)]⟩

/- The text that one template is rendered to. -/
def renderOne
    (set : TemplateSet)
    (fs : FileSystem)
    (globals : Template.Globals)
    (name : String) : Except GenerationError String :=
  match Template.runTemplate (loadTemplate fs set.directory)
      globals name with
  | .ok content => .ok content
  | .error cause => .error (set.errorOf name cause)

/- Render templates in order, adding to the files so far. -/
def renderFrom
    (set : TemplateSet)
    (fs : FileSystem)
    (globals : Template.Globals) :
    List String → ArtifactSet → Traced GenerationError ArtifactSet
| [], artifacts => Traced.pure artifacts
| name :: rest, artifacts => do
    let content ←
      Traced.ofExcept (set.renderOne fs globals name)
    Traced.emit [renderedEvent name content]
    renderFrom set fs globals rest
      (artifacts.insert (artifactPath name) content)

/- Render all templates in order. -/
def render
    (set : TemplateSet)
    (fs : FileSystem)
    (c : RenderContext) : Traced GenerationError ArtifactSet :=
  set.renderFrom fs c.globals set.names .empty

end TemplateSet

end Bindery

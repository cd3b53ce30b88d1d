import Bindery.Sorting
import Bindery.Target.Manifest
import Bindery.Target.Registry

/-
  This file defines how targets are found in a directory: every
  directory in it that holds a manifest is a target.

  Key definitions include:
    * `targetDirectories`
    * `discover`
    * `registerFound`
-/

namespace Bindery

/- Where the manifest of a directory lies. -/
def manifestPath (directory : String) : String :=
  Path.join directory Manifest.fileName

/-
  The directories with manifests in a directory, in the order
  of their names.
-/
def targetDirectories
    (fs : FileSystem)
    (path : String) : Except GenerationError (List String) :=
  match fs.listDirectory path with
  | .error e => .error (.unreadable path (.file e))
  | .ok names =>
      .ok (((ascending names).map (Path.join path)).filter
        (fun directory => fs.isFile (manifestPath directory)))

/- Load the manifest of a directory. -/
def loadManifest
    (fs : FileSystem)
    (directory : String) :
    Except GenerationError (String × Manifest) := do
  let manifest ← Manifest.load fs (manifestPath directory)
  .ok (directory, manifest)

/- The directories with manifests in a directory, and the manifests. -/
def discover
    (fs : FileSystem)
    (path : String) :
    Except GenerationError (List (String × Manifest)) := do
  let directories ← targetDirectories fs path
  directories.mapM (loadManifest fs)

/- The event of a target being found. -/
def discoveredEvent
    (directory : String)
    (manifest : Manifest) : Event :=
  ⟨.debug, .directory, "discovered target",
    [("dir", directory), ("id", manifest.name)]⟩

/- Register found targets in order for a plugin. -/
def registerFound
    (plugin : String) :
    List (String × Manifest) → Registry →
      Traced GenerationError Registry
| [], registry => Traced.pure registry
| (directory, manifest) :: rest, registry => do
    Traced.emit [discoveredEvent directory manifest]
    let registry ←
      registry.register plugin manifest.name
        (manifest.toTarget directory).generate
    registerFound plugin rest registry

end Bindery

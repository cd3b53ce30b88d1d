import Bindery.Artifact.Set
import Bindery.Event
import Bindery.Files.FileSystem
import Bindery.Target.GenerationError

/-
  This file defines how the support files of a target are
  bundled: every regular file below a directory, in the order
  of the names, under the prefix `rt/`.  Directories are listed
  and files are read by their paths, so that what lies too deep
  for the limits of the system cannot be bundled.

  Key definitions include:
    * `bundlePath`
    * `readVisit`
    * `bundleRuntime`
-/

namespace Bindery

/- The directory of support files in the output. -/
def runtimeDirectory : String :=
  "rt"

/- The path of a support file in the output. -/
def bundlePath (loc : Location) : String :=
  String.intercalate "/" (runtimeDirectory :: loc)

/- The event of a support file being bundled. -/
def bundledEvent (file artifact : String) : Event :=
  ⟨.debug, .runtime, "bundled runtime file",
    [("file", file), ("artifact", artifact)]⟩

/-
  What is read where a path leads: the text of a file, and
  nothing of a directory, which must be listed all the same.
-/
def readVisit
    (fs : FileSystem)
    (path : String) : Node.Kind → Except FileError (Option String)
| .file => (fs.readText path).map some
| .directory => (fs.listDirectory path).map (fun _ => none)

/-
  Bundle the files among what is gone through in order, adding
  to the files so far.
-/
def bundleFrom
    (fs : FileSystem)
    (root : String) :
    List (Location × Node.Kind) → ArtifactSet →
      Traced GenerationError ArtifactSet
| [], artifacts => Traced.pure artifacts
| (loc, kind) :: rest, artifacts =>
    let path := Path.joinAll root loc
    match readVisit fs path kind with
    | .error e => Traced.fail (.unreadable path (.file e))
    | .ok none => bundleFrom fs root rest artifacts
    | .ok (some content) => do
        Traced.emit [bundledEvent path (bundlePath loc)]
        bundleFrom fs root rest
          (artifacts.insert (bundlePath loc) content)

/- Bundle all regular files below a directory. -/
def bundleRuntime
    (fs : FileSystem)
    (root : String) : Traced GenerationError ArtifactSet :=
  match fs.stat root with
  | .error e => Traced.fail (.unreadable root (.file e))
  | .ok node =>
      if node.isDirectory then bundleFrom fs root node.visits .empty
      else
        Traced.fail
          (.unreadable root
            (.other "runtime bundle root is not a directory"))

end Bindery

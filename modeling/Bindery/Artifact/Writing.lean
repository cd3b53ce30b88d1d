import Bindery.Artifact.Set
import Bindery.Files.FileSystem

/-
  This file defines how a set of files is written below an
  output directory.

  All paths are checked first.  The files are then written to a
  staging directory beside the output directory, and moved from
  there: the whole staging directory if there is no output
  directory yet, one file after the other if there is.

  Key definitions include:
    * `WriteError`
    * `WriteError.messages`
    * `Writing`
    * `createDirectories`
    * `writeWithParents`
    * `checkRelative`
    * `checkDestination`
    * `ArtifactSet.writeAll`
-/

namespace Bindery

------------------------------------------------------------
-- Errors
------------------------------------------------------------

/- Why a set of files is not written. -/
inductive WriteError where
| emptyPath
| outside (path : String)
| rootNotDirectory (root : String)
| overDirectory (path place : String)
| underFile (path place : String)
| noStaging (parent : String) (cause : FileError)
| rootNotMoved (root : String) (cause : FileError)
| fileNotMoved (place : String) (cause : FileError)
| file (cause : FileError)
deriving DecidableEq, Repr

/- The wording of a write error, what it was caused by last. -/
def WriteError.messages : WriteError → List String
| .emptyPath => ["artifact path is empty"]
| .outside path =>
    ["artifact path '" ++ path ++
      "' must stay inside the output directory"]
| .rootNotDirectory root =>
    ["output directory '" ++ root ++ "' is not a directory"]
| .overDirectory path place =>
    ["cannot write artifact '" ++ path ++ "': '" ++ place ++
      "' is a directory"]
| .underFile path place =>
    ["cannot write artifact '" ++ path ++ "': '" ++ place ++
      "' is not a directory"]
| .noStaging parent cause =>
    ["failed to create staging directory in '" ++ parent ++ "'",
      cause.message]
| .rootNotMoved root cause =>
    ["failed to move output into '" ++ root ++ "'", cause.message]
| .fileNotMoved place cause =>
    ["failed to move '" ++ place ++ "' into place", cause.message]
| .file cause => [cause.message]

------------------------------------------------------------
-- Changing a File System
------------------------------------------------------------

/-
  A computation that changes a file system; when it fails, the
  changes made so far remain.
-/
abbrev Writing (α : Type) :=
  EStateM WriteError FileSystem α

namespace Writing

/- Perform one operation, which changes nothing if it fails. -/
def perform
    (wrap : FileError → WriteError)
    (operation : FileSystem → Except FileError FileSystem) :
    Writing Unit := fun fs =>
  match operation fs with
  | .ok fs' => .ok () fs'
  | .error e => .error (wrap e) fs

/- Look at the file system. -/
def inspect
    {α : Type}
    (f : FileSystem → Except WriteError α) : Writing α := fun fs =>
  match f fs with
  | .ok a => .ok a fs
  | .error e => .error e fs

/- Run a computation and, whatever its outcome, a last change. -/
def andFinally
    {α : Type}
    (computation : Writing α)
    (last : FileSystem → FileSystem) : Writing α := fun fs =>
  match computation fs with
  | .ok a fs' => .ok a (last fs')
  | .error e fs' => .error e (last fs')

end Writing

/-
  Create the first of these directories; each of the others is
  the parent of the one before it.
-/
def createFrom : List String → Writing Unit
| [] => pure ()
| path :: above => fun fs =>
    if path.isEmpty then .ok () fs
    else
      match fs.makeDirectory path with
      | .ok fs' => .ok () fs'
      | .error .notFound =>
          match createFrom above fs with
          | .error e fs' => .error e fs'
          | .ok _ fs' =>
              match fs'.makeDirectory path with
              | .ok fs'' => .ok () fs''
              | .error e =>
                  if fs'.isDirectory path then .ok () fs'
                  else .error (.file e) fs'
      | .error e =>
          if fs.isDirectory path then .ok () fs
          else .error (.file e) fs

/- Create a directory and those above it, where they are missing. -/
def createDirectories (path : String) : Writing Unit :=
  createFrom (Path.ancestors path)

/- Create the directory that a path lies in. -/
def createParent (path : String) : Writing Unit :=
  match Path.parent? path with
  | some parent => createDirectories parent
  | none => pure ()

/- Write a text file and create the directories above it. -/
def writeWithParents (path content : String) : Writing Unit := do
  createParent path
  Writing.perform .file (·.writeFile path content.toUTF8)

------------------------------------------------------------
-- Checks
------------------------------------------------------------

/- Refuse the empty path and paths that may lead outside. -/
def checkRelative (path : String) : Except WriteError Unit :=
  if path.isEmpty then .error .emptyPath
  else
    if (Path.components path).all
        (fun c => c != .root && c != .parent) then
      .ok ()
    else
      .error (.outside path)

/-
  Go down the components of a path as long as something is
  there: directories on the way, no directory at the end.
-/
def checkBelow
    (fs : FileSystem)
    (path : String) :
    String → List Path.Component → Except WriteError Unit
| _, [] => .ok ()
| place, component :: rest =>
    let place := Path.join place component.text
    if !fs.exists? place then .ok ()
    else if rest.isEmpty then
      if fs.isDirectory place then .error (.overDirectory path place)
      else .ok ()
    else if fs.isDirectory place then
      checkBelow fs path place rest
    else
      .error (.underFile path place)

/- Refuse a path whose place is taken. -/
def checkDestination
    (fs : FileSystem)
    (root path : String) : Except WriteError Unit :=
  if fs.exists? root && !fs.isDirectory root then
    .error (.rootNotDirectory root)
  else
    checkBelow fs path root (Path.components path)

/- Check paths in order. -/
def checkPaths
    (fs : FileSystem)
    (root : String) : List String → Except WriteError Unit
| [] => .ok ()
| path :: rest => do
    checkRelative path
    checkDestination fs root path
    checkPaths fs root rest

------------------------------------------------------------
-- Staging
------------------------------------------------------------

/- Where the staging directory of an output directory is made. -/
def stagingParent (root : String) : String :=
  match Path.parent? root with
  | some parent => if parent.isEmpty then "." else parent
  | none => "."

/- A name for a staging directory, with six digits or more. -/
def stagingName (n : Nat) : String :=
  ".declgen-" ++ toString (100000 + n)

/-
  The first staging name that is not taken; there are more
  names to choose from than taken ones.
-/
def freshStagingName (taken : List String) : String :=
  match (List.range (taken.length + 1)).find?
      (fun n => !taken.contains (stagingName n)) with
  | some n => stagingName n
  | none => stagingName (taken.length + 1)

/-
  Make a staging directory in a directory and return its path.
  Its name is drawn at random, so that it is neither that of an
  entry nor one that a link or the request mentions.
-/
def makeStaging
    (parent : String)
    (mentioned : List String) : Writing String := do
  let taken ← Writing.inspect fun fs =>
    match fs.listDirectory parent with
    | .ok names => .ok (names ++ fs.linkNames)
    | .error e => .error (.noStaging parent e)
  let path := Path.join parent (freshStagingName (taken ++ mentioned))
  Writing.perform (.noStaging parent) (·.makeDirectory path)
  pure path

/- Remove what a path leads to. -/
def removeAt
    (path : String)
    (fs : FileSystem) : FileSystem :=
  match fs.locate path with
  | .ok loc => fs.remove loc
  | .error _ => fs

/- Write files below a directory. -/
def stageFiles
    (staging : String) : List (String × String) → Writing Unit
| [] => pure ()
| (path, content) :: rest => do
    writeWithParents (Path.join staging path) content
    stageFiles staging rest

/- Move files one after the other from one directory to another. -/
def moveFiles
    (staging root : String) : List String → Writing Unit
| [] => pure ()
| path :: rest => do
    let place := Path.join root path
    createParent place
    Writing.perform (.fileNotMoved place)
      (·.rename (Path.join staging path) place)
    moveFiles staging root rest

namespace ArtifactSet

/- Where the files of a set are written, in order. -/
def places
    (set : ArtifactSet)
    (root : String) : List String :=
  set.paths.map (Path.join root)

/- Fill a staging directory and move its contents into place. -/
def publish
    (set : ArtifactSet)
    (root staging : String) : Writing Unit := do
  stageFiles staging set.files
  let fs ← get
  if fs.exists? root then
    moveFiles staging root set.paths
  else
    Writing.perform (.rootNotMoved root) (·.rename staging root)

/-
  Write all files of a set below an output directory and
  return their paths.
-/
def writeAll
    (set : ArtifactSet)
    (root : String) : Writing (List String) := do
  Writing.inspect (checkPaths · root set.paths)
  if set.isEmpty then
    pure []
  else
    let parent := stagingParent root
    createDirectories parent
    let staging ←
      makeStaging parent
        (Path.names root ++ set.paths.flatMap Path.names)
    Writing.andFinally (set.publish root staging) (removeAt staging)
    pure (set.places root)

end ArtifactSet

end Bindery

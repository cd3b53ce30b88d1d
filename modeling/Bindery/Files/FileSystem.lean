import Bindery.Files.FileError
import Bindery.Files.Node
import Bindery.Files.Path

/-
  This file defines file systems with a working directory, and
  the operations on them.  A path is resolved step by step from
  the working directory, or from the root if it is absolute;
  links are followed, but not more than forty of them.

  Key definitions include:
    * `FileSystem`
    * `FileSystem.resolve`
    * `FileSystem.stat`
    * `FileSystem.readText`
    * `FileSystem.listDirectory`
    * `FileSystem.makeDirectory`
    * `FileSystem.writeFile`
    * `FileSystem.rename`
-/

namespace Bindery

/- A tree of files and the location of the working directory. -/
structure FileSystem where
  root : Node
  home : Location
deriving Inhabited

/- Where the way along a path ends. -/
inductive Found where
| present (location : Location)
| missing (directory : Location) (name : String)
deriving DecidableEq, Repr

namespace FileSystem

------------------------------------------------------------
-- Nodes
------------------------------------------------------------

/- The node at a location. -/
def at?
    (fs : FileSystem)
    (loc : Location) : Option Node :=
  fs.root.at? loc

/- Put a node at a location. -/
def put
    (fs : FileSystem)
    (loc : Location)
    (node : Node) : FileSystem :=
  { fs with root := Node.put node fs.root loc }

/- Remove the node at a location. -/
def remove
    (fs : FileSystem)
    (loc : Location) : FileSystem :=
  { fs with root := fs.root.remove loc }

/- Whether there is a directory at a location. -/
def isDirectoryAt
    (fs : FileSystem)
    (loc : Location) : Bool :=
  match fs.at? loc with
  | some node => node.isDirectory
  | none => false

/- The names that the targets of links mention. -/
def linkNames (fs : FileSystem) : List String :=
  fs.root.descendants.flatMap fun (_, node) =>
    match node with
    | .link target => Path.names target
    | _ => []

------------------------------------------------------------
-- Resolution
------------------------------------------------------------

/- Longest name of a directory entry in bytes. -/
def maxNameLength : Nat :=
  255

/- Longest path in bytes. -/
def maxPathLength : Nat :=
  4095

/- How many links are followed on the way along one path. -/
def maxLinks : Nat :=
  40

/- Where the way along a path begins. -/
def startOf
    (here : Location)
    (path : String) : Location :=
  if Path.isAbsolute path then [] else here

/- The steps to a path's target; a slash at its end asks for a directory. -/
def fullSteps (path : String) : List Path.Step :=
  Path.steps path ++ (if Path.endsInSlash path then [.stay] else [])

/-
  Walk along steps from a location.  A link on the way is
  handed to `follow` with the steps from where its target
  begins; a link at the very end only if `followLast` says so.
-/
def walkWith
    (fs : FileSystem)
    (followLast : Bool)
    (follow : Location → List Path.Step → Except FileError Found) :
    Location → List Path.Step → Except FileError Found
| here, [] => .ok (.present here)
| here, .stay :: rest =>
    if fs.isDirectoryAt here then walkWith fs followLast follow here rest
    else .error .notDirectory
| here, .up :: rest =>
    if fs.isDirectoryAt here then
      walkWith fs followLast follow here.dropLast rest
    else .error .notDirectory
| here, .enter name :: rest =>
    match fs.at? here with
    | some (.directory entries) =>
        if maxNameLength < Text.byteLength name.toList then
          .error .nameTooLong
        else
          match Keyed.get? name entries with
          | none =>
              if rest.isEmpty then .ok (.missing here name)
              else .error .notFound
          | some (.link target) =>
              if rest.isEmpty && !followLast then
                .ok (.present (here ++ [name]))
              else
                follow (startOf here target) (fullSteps target ++ rest)
          | some _ => walkWith fs followLast follow (here ++ [name]) rest
    | _ => .error .notDirectory

/- Walk along steps, following at most a number of links. -/
def walk
    (fs : FileSystem)
    (followLast : Bool) :
    Nat → Location → List Path.Step → Except FileError Found
| 0 => walkWith fs followLast (fun _ _ => .error .tooManyLinks)
| links + 1 => walkWith fs followLast (walk fs followLast links)

/- Why a path is refused before it is resolved. -/
def checkPath (path : String) : Except FileError Unit :=
  if path.toList.contains '\x00' then .error .nulInPath
  else if path.isEmpty then .error .notFound
  else if maxPathLength < Text.byteLength path.toList then
    .error .nameTooLong
  else .ok ()

/- Where a path leads. -/
def resolve
    (fs : FileSystem)
    (path : String) : Except FileError Found := do
  checkPath path
  fs.walk true maxLinks (startOf fs.home path) (fullSteps path)

/- The location a path leads to. -/
def locate
    (fs : FileSystem)
    (path : String) : Except FileError Location := do
  match ← fs.resolve path with
  | .present loc => .ok loc
  | .missing _ _ => .error .notFound

/- The node a path leads to. -/
def stat
    (fs : FileSystem)
    (path : String) : Except FileError Node := do
  let loc ← fs.locate path
  match fs.at? loc with
  | some node => .ok node
  | none => .error .notFound

/- Whether a path leads to something. -/
def exists?
    (fs : FileSystem)
    (path : String) : Bool :=
  match fs.stat path with
  | .ok _ => true
  | .error _ => false

/- Whether a path leads to a directory. -/
def isDirectory
    (fs : FileSystem)
    (path : String) : Bool :=
  match fs.stat path with
  | .ok node => node.isDirectory
  | .error _ => false

/- Whether a path leads to a regular file. -/
def isFile
    (fs : FileSystem)
    (path : String) : Bool :=
  match fs.stat path with
  | .ok (.file _) => true
  | _ => false

/-
  The directory in which the last component of a path lies,
  and that component.
-/
def resolveParent
    (fs : FileSystem)
    (path : String) : Except FileError (Location × Option Path.Step) := do
  checkPath path
  let steps := Path.steps path
  match ← fs.walk true maxLinks (startOf fs.home path) steps.dropLast with
  | .missing _ _ => .error .notFound
  | .present dir =>
      if fs.isDirectoryAt dir then .ok (dir, steps.getLast?)
      else .error .notDirectory

------------------------------------------------------------
-- Reading
------------------------------------------------------------

/- The bytes of a file. -/
def readBytes
    (fs : FileSystem)
    (path : String) : Except FileError ByteArray := do
  match ← fs.stat path with
  | .file content => .ok content
  | _ => .error .isDirectory

/- The text of bytes. -/
def textOf (content : ByteArray) : Except FileError String :=
  match String.fromUTF8? content with
  | some text => .ok text
  | none => .error .notText

/- The text of a file. -/
def readText
    (fs : FileSystem)
    (path : String) : Except FileError String := do
  let content ← fs.readBytes path
  textOf content

/- The names in a directory, in the order of the system. -/
def listDirectory
    (fs : FileSystem)
    (path : String) : Except FileError (List String) := do
  match ← fs.stat path with
  | .directory entries => .ok (Keyed.keys entries)
  | _ => .error .notDirectory

------------------------------------------------------------
-- Writing
------------------------------------------------------------

/- Create a directory in a directory that is there. -/
def makeDirectory
    (fs : FileSystem)
    (path : String) : Except FileError FileSystem := do
  match ← fs.resolveParent path with
  | (dir, some (.enter name)) =>
      if maxNameLength < Text.byteLength name.toList then
        .error .nameTooLong
      else if (fs.at? (dir ++ [name])).isSome then
        .error .alreadyExists
      else
        .ok (fs.put (dir ++ [name]) (.directory []))
  | _ => .error .alreadyExists

/- Write a file, replacing the content that was there. -/
def writeFile
    (fs : FileSystem)
    (path : String)
    (content : ByteArray) : Except FileError FileSystem := do
  if Path.endsInSlash path then
    let _ ← fs.resolveParent path
    .error .isDirectory
  else
    match ← fs.resolve path with
    | .missing dir name => .ok (fs.put (dir ++ [name]) (.file content))
    | .present loc =>
        if fs.isDirectoryAt loc then .error .isDirectory
        else .ok (fs.put loc (.file content))

/- The location of a last component in a directory. -/
def entryLocation : Location × Option Path.Step → Except FileError Location
| (dir, some (.enter name)) =>
    if maxNameLength < Text.byteLength name.toList then
      .error .nameTooLong
    else
      .ok (dir ++ [name])
| _ => .error .busy

/-
  Whether a node may be moved onto what is at the new place.
-/
def checkReplacement : Node → Option Node → Except FileError Unit
| _, none => .ok ()
| .directory _, some (.directory []) => .ok ()
| .directory _, some (.directory _) => .error .directoryNotEmpty
| .directory _, some _ => .error .notDirectory
| _, some (.directory _) => .error .isDirectory
| _, some _ => .ok ()

/-
  Move a file or a directory.  A file replaces what is at the
  new path unless that is a directory; a directory replaces an
  empty directory.
-/
def rename
    (fs : FileSystem)
    (old new : String) : Except FileError FileSystem := do
  let oldParent ← fs.resolveParent old
  let newParent ← fs.resolveParent new
  let source ← entryLocation oldParent
  let target ← entryLocation newParent
  match fs.at? source with
  | none => .error .notFound
  | some node =>
      if !node.isDirectory &&
          (Path.endsInSlash old || Path.endsInSlash new) then
        .error .notDirectory
      else if source = target then
        .ok fs
      else if source.isPrefixOf target then
        .error .invalidMove
      else if target.isPrefixOf source then
        .error .directoryNotEmpty
      else do
        checkReplacement node (fs.at? target)
        .ok ((fs.remove source).put target node)

end FileSystem

end Bindery

import Bindery.CommandLine.Run

/-
  This file defines the program: it takes a snapshot of the
  working directory, carries the command line out on it, and
  writes back what has changed.

  Key definitions include:
    * `snapshot`
    * `placeAt`
    * `writeBack`
    * `main`
-/

namespace Bindery

/- The tree of files below a directory. -/
partial def snapshot (path : String) : IO Node := do
  let place ← IO.FS.realPath path
  let entries ← place.readDir
  let nodes ← entries.toList.mapM fun entry => do
    let below := Path.join path entry.fileName
    let node ←
      if ← entry.path.isDir then snapshot below
      else do
        let content ← IO.FS.readBinFile below
        pure (Node.file content)
    pure (entry.fileName, node)
  pure (.directory nodes)

/- A tree in which a node lies at a location. -/
def placeAt (node : Node) : Location → Node
| [] => node
| name :: rest => .directory [(name, placeAt node rest)]

/- The names on the way from the root to a path. -/
def locationOf (path : String) : Location :=
  (Path.components path).filterMap fun component =>
    match component with
    | .normal name => some name
    | _ => none

/- Write the files of a tree that are not those of an older one. -/
def writeBack (old new : Node) : IO Unit := do
  for (loc, node) in new.descendants do
    let path := "/" ++ String.intercalate "/" loc
    match node with
    | .directory _ => IO.FS.createDirAll path
    | .link _ => pure ()
    | .file content =>
        let unchanged :=
          match old.at? loc with
          | some (.file before) => before == content
          | _ => false
        if unchanged then pure ()
        else IO.FS.writeBinFile path content

end Bindery

open Bindery in
/- Run the program. -/
def main (args : List String) : IO UInt32 := do
  let here ← IO.FS.realPath "."
  let home := locationOf here.toString
  let tree ← snapshot here.toString
  let root := placeAt tree home
  let outcome := CommandLine.run ⟨root, home⟩ args
  for event in outcome.events do
    IO.eprintln event.line
  for warning in outcome.warnings do
    IO.eprintln ("warning: " ++ warning)
  for code in outcome.code do
    IO.eprintln code
  for cause in outcome.causes do
    IO.eprintln cause
  IO.print outcome.output
  writeBack root outcome.fileSystem.root
  pure outcome.status.toUInt32

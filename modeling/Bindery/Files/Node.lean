import Bindery.Keyed
import Bindery.Sorting

/-
  This file defines trees of files.  The entries of a
  directory stand in the order in which the system lists them.

  Key definitions include:
    * `Node`
    * `Node.at?`
    * `Node.put`
    * `Node.remove`
    * `Node.descendants`
    * `Node.collect`
    * `Node.visits`
-/

namespace Bindery

/- A file, a directory or a symbolic link. -/
inductive Node where
| file : ByteArray → Node
| directory : List (String × Node) → Node
| link : String → Node
deriving Inhabited

/- Names from the root down to a node. -/
abbrev Location :=
  List String

namespace Node

/- Whether a node is a directory. -/
def isDirectory : Node → Bool
| .directory _ => true
| _ => false

/- The node at a location; links are not followed. -/
def at? : Node → Location → Option Node
| node, [] => some node
| .directory entries, name :: rest =>
    match Keyed.get? name entries with
    | some child => child.at? rest
    | none => none
| _, _ :: _ => none

/-
  Put a node at a location whose directory is there; without
  that directory nothing changes.
-/
def put (new : Node) : Node → Location → Node
| _, [] => new
| .directory entries, [name] =>
    .directory (Keyed.put name new entries)
| .directory entries, name :: next :: rest =>
    match Keyed.get? name entries with
    | some child =>
        .directory (Keyed.put name (put new child (next :: rest)) entries)
    | none => .directory entries
| node, _ :: _ => node

/- Remove the node at a location. -/
def remove : Node → Location → Node
| .directory entries, [name] =>
    .directory (Keyed.erase name entries)
| .directory entries, name :: next :: rest =>
    match Keyed.get? name entries with
    | some child =>
        .directory (Keyed.put name (child.remove (next :: rest)) entries)
    | none => .directory entries
| node, _ => node

mutual

/- All nodes below a node with their locations. -/
def descendants : Node → List (Location × Node)
| .directory entries => entryDescendants entries
| _ => []

/- The entries of a directory and all nodes below them. -/
def entryDescendants :
    List (String × Node) → List (Location × Node)
| [] => []
| (name, node) :: rest =>
    ([name], node) ::
      ((descendants node).map (fun (loc, n) => (name :: loc, n)) ++
        entryDescendants rest)

end

/- What is gone through in a tree of files; links are passed over. -/
inductive Kind where
| file
| directory
deriving DecidableEq, Repr

/- What a node is gone through as, if it is. -/
def kind? : Node → Option Kind
| .file _ => some .file
| .directory _ => some .directory
| .link _ => none

mutual

/-
  What is picked from the nodes at and below a node, with their
  locations.  A directory comes before what is in it, and that
  is gone through in the order of the names.
-/
def collect
    {α : Type}
    (pick : Node → Option α) : Node → List (Location × α)
| .file content =>
    (pick (.file content)).toList.map (fun a => ([], a))
| .link target =>
    (pick (.link target)).toList.map (fun a => ([], a))
| .directory entries =>
    (pick (.directory entries)).toList.map (fun a => ([], a)) ++
      (sortOn Prod.fst (collectEntries pick entries)).flatMap
        (fun (name, below) =>
          below.map (fun (loc, a) => (name :: loc, a)))

/- What is picked at and below each entry of a directory. -/
def collectEntries
    {α : Type}
    (pick : Node → Option α) :
    List (String × Node) → List (String × List (Location × α))
| [] => []
| (name, node) :: rest =>
    (name, collect pick node) :: collectEntries pick rest

end

/- The directories and regular files at and below a node, in order. -/
def visits (node : Node) : List (Location × Kind) :=
  node.collect kind?

end Node

end Bindery

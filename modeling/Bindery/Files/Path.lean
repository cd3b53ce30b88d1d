import Bindery.Text.Separated
import Bindery.Text.Utf8

/-
  This file defines paths.  A path is a text; it is shown as it
  was written, and it is read as components between slashes.

  Repeated slashes, a slash at the end, and single dots other
  than one at the very start do not count as components.

  Key definitions include:
    * `Path.Component`
    * `Path.components`
    * `Path.join`
    * `Path.joinAll`
    * `Path.parent?`
    * `Path.relativeTo`
    * `Path.steps`
    * `Path.names`
-/

namespace Bindery.Path

------------------------------------------------------------
-- Components
------------------------------------------------------------

/- A component of a path. -/
inductive Component where
| root
| current
| parent
| normal : String → Component
deriving DecidableEq, Repr

/- The text of a component. -/
def Component.text : Component → String
| .root => "/"
| .current => "."
| .parent => ".."
| .normal name => name

/- Whether a path starts at the root. -/
def isAbsolute (path : String) : Bool :=
  path.toList.head? = some '/'

/- A component with the places where its text starts and ends. -/
structure Span where
  component : Component
  start : Nat
  stop : Nat
deriving DecidableEq, Repr

/- The spans of pieces between slashes, the first one at `start`. -/
def spansFrom
    (start : Nat) : List (List Char) → List Span
| [] => []
| piece :: rest =>
    let stop := start + piece.length
    let others := spansFrom (stop + 1) rest
    if piece = [] then others
    else if piece = ['.'] then
      if start = 0 then ⟨.current, start, stop⟩ :: others else others
    else if piece = ['.', '.'] then
      ⟨.parent, start, stop⟩ :: others
    else
      ⟨.normal (String.ofList piece), start, stop⟩ :: others

/- The components of a path with their places. -/
def spans (path : String) : List Span :=
  let pieces := spansFrom 0 (Text.splitAt '/' path.toList)
  if isAbsolute path then ⟨.root, 0, 1⟩ :: pieces else pieces

/- The components of a path. -/
def components (path : String) : List Component :=
  (spans path).map Span.component

------------------------------------------------------------
-- Joining and Cutting
------------------------------------------------------------

/-
  A path below another one.  An absolute path replaces the
  one it is joined to.
-/
def join (base path : String) : String :=
  if isAbsolute path || base.isEmpty then path
  else if base.toList.getLast? = some '/' then base ++ path
  else base ++ "/" ++ path

/- The path of what has certain names on the way below a base. -/
def joinAll
    (base : String)
    (names : List String) : String :=
  names.foldl join base

/- The part of a path's text between two places. -/
def slice
    (path : String)
    (start stop : Nat) : String :=
  String.ofList ((path.toList.take stop).drop start)

/-
  A path without its last component; there is none for the
  root and for the empty path.
-/
def parent? (path : String) : Option String :=
  match (spans path).reverse with
  | [] => none
  | last :: before =>
      if last.component = .root then none
      else
        match before with
        | [] => some ""
        | previous :: _ => some (slice path 0 previous.stop)

/-
  What is left of a path after the components of `base`, or
  nothing if it does not start with them.
-/
def relativeTo? (base path : String) : Option String :=
  let all := spans path
  let start := components base
  if start.isPrefixOf (all.map Span.component) then
    match all.drop start.length, all.getLast? with
    | first :: _, some last => some (slice path first.start last.stop)
    | _, _ => some ""
  else
    none

/- A path below `base` as seen from there, other paths unchanged. -/
def relativeTo (base path : String) : String :=
  (relativeTo? base path).getD path

/- A path and the paths above it, nearest first. -/
def ancestorsFrom : Nat → String → List String
| 0, path => [path]
| fuel + 1, path =>
    match parent? path with
    | some above => path :: ancestorsFrom fuel above
    | none => [path]

/- A path and the paths above it, nearest first. -/
def ancestors (path : String) : List String :=
  ancestorsFrom (spans path).length path

------------------------------------------------------------
-- Routes
------------------------------------------------------------

/- One step on the way to a file. -/
inductive Step where
| stay
| up
| enter : String → Step
deriving DecidableEq, Repr

/- The step for a piece between slashes. -/
def stepOf (piece : List Char) : Option Step :=
  if piece = [] then none
  else if piece = ['.'] then some .stay
  else if piece = ['.', '.'] then some .up
  else some (.enter (String.ofList piece))

/- The steps of a path. -/
def steps (path : String) : List Step :=
  (Text.splitAt '/' path.toList).filterMap stepOf

/- The name that a step enters. -/
def Step.name? : Step → Option String
| .enter name => some name
| _ => none

/- The names that a path enters. -/
def names (path : String) : List String :=
  (steps path).filterMap Step.name?

/- Whether a path ends in a slash. -/
def endsInSlash (path : String) : Bool :=
  path.toList.getLast? = some '/'

end Bindery.Path

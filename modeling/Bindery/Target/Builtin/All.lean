import Bindery.Target.Builtin.Cpp
import Bindery.Target.Builtin.Golang
import Bindery.Target.Builtin.TypeScript

/-
  This file defines the list of all targets that come with the
  program, and how they generate.

  Key definitions include:
    * `Builtin.targets`
    * `Builtin.fileSystem`
    * `BuiltinTarget.generate`
-/

namespace Bindery

namespace Builtin

/- All targets that come with the program, in order. -/
def targets : List BuiltinTarget :=
  [Cpp.target, Golang.target, TypeScript.target]

/- The target that is used if none is asked for. -/
def default : BuiltinTarget :=
  Golang.target

/- The tree in which the files of the targets lie. -/
def fileSystem : FileSystem where
  root :=
    .directory
      [(BuiltinTarget.home,
        .directory
          (targets.map (fun target =>
            (target.directoryName, target.files))))]
  home := []

end Builtin

/- Generate for a schema; the files at hand do not matter. -/
def BuiltinTarget.generate (target : BuiltinTarget) : Generator :=
  fun _ schema => target.toTarget.generate Builtin.fileSystem schema

end Bindery

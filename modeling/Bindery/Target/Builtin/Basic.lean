import Bindery.Target.TemplateTarget

/-
  This file defines targets that come with the program.  Their
  templates and support files lie in a tree of their own.

  Key definitions include:
    * `ofLines`
    * `BuiltinTarget`
    * `BuiltinTarget.directory`
    * `BuiltinTarget.toTarget`
-/

namespace Bindery

/- A text of lines, each of them ended by a line break. -/
def ofLines (lines : List String) : String :=
  String.join (lines.map (· ++ "\n"))

/- A file with a text. -/
def Node.ofText (text : String) : Node :=
  .file text.toUTF8

/- A target that comes with the program. -/
structure BuiltinTarget where
  id : String
  main : String
  templates : List String
  files : Node

namespace BuiltinTarget

/- The directory that holds the directories of all targets. -/
def home : String :=
  "$SRC"

/- The name of a target's directory. -/
def directoryName (target : BuiltinTarget) : String :=
  "declgen-codegen-" ++ target.id

/- The directory of a target. -/
def directory (target : BuiltinTarget) : String :=
  Path.join home target.directoryName

/- The templates and support files of a target. -/
def toTarget (target : BuiltinTarget) : TemplateTarget where
  templates :=
    ⟨Path.join target.directory "templates", target.templates⟩
  runtime := some (Path.join target.directory runtimeDirectory)
  main := target.main

end BuiltinTarget

end Bindery

import Bindery.Files.FileError
import Bindery.Template.TemplateError

/-
  This file defines why nothing is generated, and the wording.

  Key definitions include:
    * `ReadCause`
    * `GenerationError`
    * `GenerationError.message`
    * `GenerationError.code`
    * `GenerationError.help`
-/

namespace Bindery

/- Why something cannot be read. -/
inductive ReadCause where
| file : FileError → ReadCause
| other : String → ReadCause
deriving DecidableEq, Repr

/- Why nothing is generated. -/
inductive GenerationError where
| unreadable (path : String) (cause : ReadCause)
| unknownTarget (id : String) (available : List String)
| templateNotFound (template directory : String)
| notRendered (template : String) (cause : TemplateError)
| badManifest (path : String)
| pluginSetup (plugin : String) (cause : GenerationError)
deriving DecidableEq, Repr

/- Ids as they are listed in a sentence. -/
def listIds (ids : List String) : String :=
  if ids.isEmpty then "none" else String.intercalate ", " ids

namespace GenerationError

/- The wording of an error. -/
def message : GenerationError → String
| .unreadable path _ => "failed to read '" ++ path ++ "'"
| .unknownTarget id _ => "unknown target '" ++ id ++ "'"
| .templateNotFound template directory =>
    "template '" ++ template ++ "' not found in '" ++ directory ++ "'"
| .notRendered template _ =>
    "failed to render template '" ++ template ++ "'"
| .badManifest path => "invalid target manifest '" ++ path ++ "'"
| .pluginSetup plugin _ => "plugin '" ++ plugin ++ "' failed to set up"

/- The code under which an error is documented. -/
def code : GenerationError → String
| .unreadable _ _ => "declgen::io"
| .unknownTarget _ _ => "declgen::unknown_target"
| .templateNotFound _ _ => "declgen::template_not_found"
| .notRendered _ _ => "declgen::render_error"
| .badManifest _ => "declgen::target_manifest"
| .pluginSetup _ _ => "declgen::plugin_setup"

/- A hint on how to avoid an error. -/
def help : GenerationError → Option String
| .unknownTarget _ available =>
    some ("available targets: " ++ listIds available)
| .badManifest _ =>
    some ("a target manifest needs a [target] table with " ++
      "`name` and `primary`")
| _ => none

end GenerationError

end Bindery

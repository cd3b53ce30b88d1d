import Bindery.Files.FileSystem
import Bindery.Schema.Location

/-
  This file defines schemas that are read from files.

  Key definitions include:
    * `SchemaFile`
    * `SchemaFileError`
    * `SchemaFileError.message`
    * `SchemaFile.read`
-/

namespace Bindery

/- A schema with the file it was read from. -/
structure SchemaFile where
  path : String
  content : String
  schema : Schema

/- Why a schema cannot be read from a file. -/
inductive SchemaFileError where
| unreadable (path : String) (cause : FileError)
| notSchema : SchemaError → SchemaFileError

namespace SchemaFileError

/- The wording of a failure. -/
def message : SchemaFileError → String
| .unreadable path _ => "failed to read '" ++ path ++ "'"
| .notSchema e => e.message

/- The code under which a failure is documented. -/
def code : SchemaFileError → String
| .unreadable _ _ => "declgen::io"
| .notSchema e => e.code

/- A hint on how to avoid a failure. -/
def help : SchemaFileError → Option String
| .unreadable _ _ => none
| .notSchema e => some e.help

end SchemaFileError

/- Read a schema from a file. -/
def SchemaFile.read
    (fs : FileSystem)
    (path : String) : Except SchemaFileError SchemaFile :=
  match fs.readText path with
  | .error e => .error (.unreadable path e)
  | .ok content =>
      match Schema.parseNamed path content with
      | .ok schema => .ok ⟨path, content, schema⟩
      | .error e => .error (.notSchema e)

end Bindery

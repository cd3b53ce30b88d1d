import Bindery.Target.TemplateTarget
import Bindery.Toml.Reader

/-
  This file defines manifests, which describe targets that are
  found in directories.

  Key definitions include:
    * `Manifest`
    * `Manifest.ofToml?`
    * `Manifest.load`
    * `Manifest.toTarget`
-/

namespace Bindery

/- The description of a target. -/
structure Manifest where
  name : String
  main : String
  templates : List String
  runtime : Bool
deriving DecidableEq, Repr

namespace Manifest

/- The file name of a manifest. -/
def fileName : String :=
  "target.toml"

/- The directory of the templates beside a manifest. -/
def templatesDirectory : String :=
  "templates"

/- A text, and nothing else. -/
def text? : Toml → Option String
| .text s => some s
| _ => none

/- A list of texts, and nothing else. -/
def texts? : Toml → Option (List String)
| .array items _ => items.mapM text?
| _ => none

/- A truth value, and nothing else. -/
def truth? : Toml → Option Bool
| .bool b => some b
| _ => none

/- A value that may be missing, but not be of the wrong kind. -/
def valueOr
    {α : Type}
    (read : Toml → Option α)
    (default : α) : Option Toml → Option α
| none => some default
| some value => read value

/-
  The manifest whose parts are looked up by name.  Templates
  and support files need not be mentioned.
-/
def ofParts? (part? : String → Option Toml) : Option Manifest := do
  let name ← (part? "name").bind text?
  let main ← (part? "primary").bind text?
  let templates ← valueOr texts? [] (part? "templates")
  let runtime ← valueOr truth? true (part? "runtime")
  some ⟨name, main, templates, runtime⟩

/- The names of the parts in the order in which a list has them. -/
def partNames : List String :=
  ["name", "primary", "templates", "runtime"]

/-
  The manifest in a document: a table `target`, or a list of
  the parts in order.
-/
def ofToml? (document : Toml) : Option Manifest :=
  match document.get? "target" with
  | some (.table _ entries) => ofParts? (Keyed.get? · entries)
  | some (.array items _) => ofParts? ((partNames.zip items).lookup ·)
  | _ => none

/- Load a manifest from a file. -/
def load
    (fs : FileSystem)
    (path : String) : Except GenerationError Manifest :=
  match fs.readText path with
  | .error e => .error (.unreadable path (.file e))
  | .ok text =>
      match (Toml.parse? text).bind ofToml? with
      | some manifest => .ok manifest
      | none => .error (.badManifest path)

/- The target that a manifest in a directory describes. -/
def toTarget
    (manifest : Manifest)
    (directory : String) : TemplateTarget where
  templates :=
    ⟨Path.join directory templatesDirectory, manifest.templates⟩
  runtime :=
    if manifest.runtime then
      some (Path.join directory runtimeDirectory)
    else
      none
  main := manifest.main

end Manifest

end Bindery

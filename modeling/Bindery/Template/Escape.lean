import Bindery.Template.Value
import Bindery.Text.Separated

/-
  This file defines how values are written into the output of a
  template.  What is escaped depends on the template's name.

  Key definitions include:
    * `EscapeMode`
    * `EscapeMode.ofName`
    * `EscapeMode.write`
-/

namespace Bindery.Template

/- Which characters of values are escaped. -/
inductive EscapeMode where
| verbatim
| page
| document
deriving DecidableEq, Repr

namespace EscapeMode

/- The endings that mark a file as a template. -/
def templateEndings : List String :=
  [".j2", ".jinja2", ".jinja"]

/- A text without an ending. -/
def dropEnding? (ending name : List Char) : Option (List Char) :=
  if ending.isSuffixOf name then
    some (name.take (name.length - ending.length))
  else
    none

/- A name without one ending of templates. -/
def baseName (name : List Char) : List Char :=
  (templateEndings.findSome? (fun e => dropEnding? e.toList name)).getD
    name

/- What stands after the last dot of a name. -/
def kindOf (name : String) : String :=
  let base := baseName name.toList
  match Text.splitLast ['.'] base with
  | some (_, kind) => String.ofList kind
  | none => String.ofList base

/- The mode of a template by its name. -/
def ofName (name : String) : EscapeMode :=
  let kind := kindOf name
  if ["html", "htm", "xml"].contains kind then .page
  else if ["json", "json5", "js", "yaml", "yml"].contains kind then
    .document
  else .verbatim

/- A character as it stands in a page. -/
def pageChar (c : Char) : List Char :=
  if c = '&' then ['&', 'a', 'm', 'p', ';']
  else if c = '<' then ['&', 'l', 't', ';']
  else if c = '>' then ['&', 'g', 't', ';']
  else if c = '"' then ['&', 'q', 'u', 'o', 't', ';']
  else if c = '\'' then ['&', '#', 'x', '2', '7', ';']
  else if c = '/' then ['&', '#', 'x', '2', 'f', ';']
  else [c]

/- A text as it stands in a page. -/
def pageText (s : String) : String :=
  String.ofList (s.toList.flatMap pageChar)

/- The output for a value that is not a safe text. -/
def writeUnsafe :
    EscapeMode → Value → Except TemplateError String
| .verbatim, value => .ok value.display
| .page, .text s _ => .ok (pageText s)
| .page, .list items => .ok (pageText (Value.list items).display)
| .page, .map entries => .ok (pageText (Value.map entries).display)
| .page, .function f => .ok (pageText (Value.function f).display)
| .page, value => .ok value.display
| .document, value => do
    let json ← value.toJson
    .ok json.compact

/- The output for a value. -/
def write
    (mode : EscapeMode)
    (value : Value) : Except TemplateError String :=
  match value with
  | .text s true => .ok s
  | _ => writeUnsafe mode value

/- The value of output that was captured in a mode. -/
def captured
    (mode : EscapeMode)
    (output : String) : Value :=
  .text output (mode != .verbatim)

end EscapeMode

end Bindery.Template

import Bindery.Schema.Reader

/-
  This file defines how a failure to read a schema is shown:
  which document it is about, which byte it points at, and the
  wording.

  Key definitions include:
    * `offsetOf`
    * `SchemaError`
    * `SchemaError.message`
    * `Schema.parseNamed`
    * `Schema.ofText`
-/

namespace Bindery

/-
  Count the bytes before a place.  The walk stops at the first
  character whose line and column, both counted in characters
  from zero, have reached the wanted ones, counted from one.
-/
def offsetFrom
    (wantedLine wantedColumn : Nat)
    (line column offset : Nat) : List Char → Nat
| [] => offset
| c :: rest =>
    if wantedLine ≤ line + 1 && wantedColumn ≤ column + 1 then
      offset
    else if c = '\n' then
      offsetFrom wantedLine wantedColumn
        (line + 1) 0 (offset + c.utf8Size) rest
    else
      offsetFrom wantedLine wantedColumn
        line (column + 1) (offset + c.utf8Size) rest

/- The byte that a line and a column of a text point at. -/
def offsetOf
    (text : String)
    (line column : Nat) : Nat :=
  offsetFrom line column 0 0 0 text.toList

/- The byte that a failure points at; line zero is no place. -/
def offsetOf?
    (text : String)
    (line column : Nat) : Option Nat :=
  if line = 0 then none else some (offsetOf text line column)

/- A document that is not a schema. -/
structure SchemaError where
  sourceName : String
  offset : Option Nat
  cause : Json.ReadError
deriving Repr

namespace SchemaError

/- The wording of the failure; the cause says more. -/
def message (_ : SchemaError) : String :=
  "failed to parse schema"

/- The code under which the failure is documented. -/
def code (_ : SchemaError) : String :=
  "declgen::parse_error"

/- A hint on how a schema looks. -/
def help (_ : SchemaError) : String :=
  "a schema is a JSON object with a \"decls\" list of [name, body] pairs"

end SchemaError

/- Read a schema on behalf of a named document. -/
def Schema.parseNamed
    (sourceName text : String) : Except SchemaError Schema :=
  match Schema.parse text with
  | .ok schema => .ok schema
  | .error e =>
      .error ⟨sourceName, offsetOf? text e.line e.column, e⟩

/- Name under which a schema without a file is reported. -/
def defaultSourceName : String :=
  "schema.json"

/- Read a schema that no file holds. -/
def Schema.ofText (text : String) : Except SchemaError Schema :=
  Schema.parseNamed defaultSourceName text

end Bindery

import Bindery.Event
import Bindery.Keyed
import Bindery.Schema.Basic
import Bindery.Sorting

/-
  This file defines what templates see: the schema, the
  declaration bodies by qualified name, and the namespaces of
  those names.

  Key definitions include:
    * `namespaces`
    * `declareAll`
    * `RenderContext`
    * `RenderContext.build`
    * `RenderContext.toJson`
-/

namespace Bindery

------------------------------------------------------------
-- Namespaces
------------------------------------------------------------

/- The namespaces of qualified names, ascending, each once. -/
def namespaces (names : List String) : List String :=
  ascending (names.map namespaceOf).eraseDups

------------------------------------------------------------
-- Declarations by Name
------------------------------------------------------------

/- The event of a declaration being passed. -/
def declaredEvent (d : Decl) : Event :=
  ⟨.debug, .context, "declaration",
    [("name", d.qualifiedName), ("body", d.body.compact)]⟩

/- The event of a declaration replacing an earlier one. -/
def replacedEvent (name : String) : Event :=
  ⟨.warn, .context,
    "duplicate declaration name, the later body replaces the earlier one",
    [("name", name)]⟩

/-
  Put the bodies of declarations under their qualified names.
  A repeated name keeps its place and gets the last body.
-/
def declareAll
    (known : List (String × Json)) :
    List Decl → List (String × Json) × List Event
| [] => (known, [])
| d :: rest =>
    let name := d.qualifiedName
    let later := declareAll (Keyed.put name d.body known) rest
    (later.1,
      declaredEvent d ::
        ((if (Keyed.get? name known).isSome then [replacedEvent name]
          else []) ++ later.2))

/- What templates see. -/
structure RenderContext where
  schema : Schema
  declsByName : List (String × Json)
  declNamespaces : List String

namespace RenderContext

/- The context of a schema. -/
def ofSchema (schema : Schema) : RenderContext :=
  let byName := (declareAll [] schema.decls).1
  ⟨schema, byName, namespaces (byName.map Prod.fst)⟩

/- The context of a schema, with the events of its making. -/
def build
    {ε : Type}
    (schema : Schema) : Traced ε RenderContext :=
  ⟨(declareAll [] schema.decls).2, .ok (ofSchema schema)⟩

/- The context as a document. -/
def toJson (c : RenderContext) : Json :=
  .object
    [("schema", c.schema.toJson),
      ("decls_by_name", .object c.declsByName),
      ("decl_namespaces", .array (c.declNamespaces.map Json.text))]

end RenderContext

end Bindery

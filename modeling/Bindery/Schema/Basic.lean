import Bindery.Json.Writer
import Bindery.QualifiedName

/-
  This file defines schemas: declarations in order, and the
  other fields of the document, which are passed on to
  templates.

  Key definitions include:
    * `Decl`
    * `Decl.qualifiedName`
    * `Schema`
    * `Schema.names`
    * `Schema.duplicateNames`
    * `Schema.toJson`
-/

namespace Bindery

/- A name with a body that only templates look into. -/
structure Decl where
  name : List String
  body : Json
deriving Inhabited

/- The qualified name of a declaration. -/
def Decl.qualifiedName (d : Decl) : String :=
  Bindery.qualifiedName d.name

/- A declaration as a pair of its name and its body. -/
def Decl.toJson (d : Decl) : Json :=
  .array [.array (d.name.map Json.text), d.body]

/- A schema document. -/
structure Schema where
  decls : List Decl
  extra : List (String × Json)
deriving Inhabited

namespace Schema

/- A schema without declarations or other fields. -/
def empty : Schema :=
  ⟨[], []⟩

/- Qualified names of the declarations, repeats included. -/
def names (s : Schema) : List String :=
  s.decls.map Decl.qualifiedName

/-
  Names that stand a second time, in the order of their second
  places.  `seen` holds the names passed so far and `reported`
  those listed so far.
-/
def repeatsFrom
    (seen reported : List String) : List String → List String
| [] => []
| name :: rest =>
    if seen.contains name && !reported.contains name then
      name :: repeatsFrom seen (name :: reported) rest
    else
      repeatsFrom (name :: seen) reported rest

/- Names declared more than once, each listed once. -/
def duplicateNames (s : Schema) : List String :=
  repeatsFrom [] [] s.names

/- The document of a schema: its declarations, then the rest. -/
def toJson (s : Schema) : Json :=
  .object (("decls", .array (s.decls.map Decl.toJson)) :: s.extra)

end Schema

end Bindery

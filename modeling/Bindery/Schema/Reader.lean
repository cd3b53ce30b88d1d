import Bindery.Keyed
import Bindery.Json.Reader
import Bindery.Schema.Basic

/-
  This file defines how schemas are read.

  A schema is an object with a `decls` list of pairs, each a
  list of name segments and a body.  All other members are
  kept as they are.

  Key definitions include:
    * `readName`
    * `readDecl`
    * `readSchema`
    * `Schema.parse`
-/

namespace Bindery

open Json

/- How deep the values of the outermost object may be nested. -/
def fieldDepth : Nat :=
  maxDepth - 1

/- How deep a declaration body may be nested. -/
def bodyDepth : Nat :=
  maxDepth - 3

/- Read a segment of a name. -/
def readSegment : Reader String := fun c =>
  let c := c.skipBlanks
  match c.rest with
  | [] => c.failAhead .endInValue
  | '"' :: _ => readString c.next
  | _ => failUnexpected "a string" c

/- Read a list that stands where `expected` should stand. -/
def readListOf
    {α : Type}
    (expected : String)
    (contents : Reader α) : Reader α := fun c =>
  let c := c.skipBlanks
  match c.rest with
  | [] => c.failAhead .endInValue
  | '[' :: _ => contents c.next
  | _ => failUnexpected expected c

/- Read the segments of a name. -/
def readName : Reader (List String) :=
  readListOf "a sequence" (readSequence readSegment)

/-
  Read the next element of a pair; `index` is the number of
  elements before it.
-/
def readPairElement
    {α : Type}
    (index : Nat)
    (element : Reader α) : Reader α := fun c => do
  let (more, c) ← nextElement (index == 0) c
  if more then
    element c
  else
    c.next.failHere (.wrongLength index "a tuple of size 2")

/- Read a declaration. -/
def readDecl : Reader Decl :=
  readListOf "a tuple of size 2" fun c => do
    let (name, c) ← readPairElement 0 readName c
    let (body, c) ← readPairElement 1 (readValue bodyDepth) c
    let (_, c) ← closeList c
    .ok (⟨name, body⟩, c)

/- Read the list of declarations. -/
def readDecls : Reader (List Decl) :=
  readListOf "a sequence" (readSequence readDecl)

/- What is known of a schema while its members are read. -/
structure PartialSchema where
  decls : Option (List Decl)
  extra : List (String × Json)

/- The place after blanks and the end of an object, if it is there. -/
def afterObject (c : Cursor) : Cursor :=
  let c := c.skipBlanks
  match c.rest with
  | '}' :: _ => c.next
  | _ => c

/- Read the value of one member of a schema. -/
def readField
    (s : PartialSchema)
    (key : String) : Reader PartialSchema := fun c =>
  if key = "decls" then
    match s.decls with
    | some _ => (afterObject c).failHere (.duplicateField "decls")
    | none => do
        let (_, c) ← readColon c
        let (decls, c) ← readDecls c
        .ok ({ s with decls := some decls }, c)
  else do
    let (_, c) ← readColon c
    let (value, c) ← readValue fieldDepth c
    .ok ({ s with extra := Keyed.put key value s.extra }, c)

/- Read a schema. -/
def readSchema : Reader Schema := fun c =>
  let c := c.skipBlanks
  match c.rest with
  | [] => c.failAhead .endInValue
  | '{' :: _ => do
      let (fields, c) ← foldMembers readField ⟨none, []⟩ c.next
      let c := afterObject c
      match fields.decls with
      | some decls => .ok (⟨decls, fields.extra⟩, c)
      | none => c.failHere (.missingField "decls")
  | _ => failUnexpected "struct Schema" c

/- The schema in a text that holds nothing else. -/
def Schema.parse (text : String) : Except ReadError Schema := do
  let (schema, c) ← readSchema (Cursor.start text)
  let c := c.skipBlanks
  if c.rest.isEmpty then
    .ok schema
  else
    c.failAhead .trailingCharacters

end Bindery

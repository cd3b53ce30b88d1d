import Bindery.Keyed

/-
  This file defines TOML documents and how tables are built up
  from headers and pairs.

  A table can be defined once only.  A header may complete a
  table that was merely implied by a longer header; dotted keys
  may extend tables that were made by dotted keys, and nothing
  extends an inline table.

  Key definitions include:
    * `TableKind`
    * `Toml`
    * `Toml.insertPair`
    * `Toml.openTable`
    * `Toml.openElement`
-/

namespace Bindery

/- How a table came about. -/
inductive TableKind where
| explicit
| implied
| dotted
| inline
deriving DecidableEq, Repr

/-
  A TOML value.  A point in time is kept as it is written.  An
  array of tables is one that is made of headers.
-/
inductive Toml where
| text : String → Toml
| bool : Bool → Toml
| int : Int → Toml
| float : Float → Toml
| moment : String → Toml
| array (items : List Toml) (ofTables : Bool)
| table (kind : TableKind) (entries : List (String × Toml))
deriving Repr, Inhabited

namespace Toml

/- A change of a table, which may be refused. -/
abbrev TableChange :=
  TableKind → List (String × Toml) → Option Toml

/- The document without pairs. -/
def empty : Toml :=
  .table .explicit []

/-
  Change the table at a path; tables on the way are made where
  they are missing.  Of an array of tables the last one counts.
-/
def changeAt
    (dotted : Bool)
    (change : TableChange) : List String → TableChange
| [], kind, entries => change kind entries
| key :: path, kind, entries =>
    match Keyed.get? key entries with
    | none => do
        let made := if dotted then TableKind.dotted else .implied
        let child ← changeAt dotted change path made []
        some (.table kind (Keyed.put key child entries))
    | some (.table childKind children) =>
        if childKind = .inline || (dotted && childKind = .explicit) then
          none
        else do
          let child ← changeAt dotted change path childKind children
          some (.table kind (Keyed.put key child entries))
    | some (.array items true) =>
        match items.getLast? with
        | some (.table childKind children) => do
            let child ← changeAt dotted change path childKind children
            some (.table kind
              (Keyed.put key (.array (items.dropLast ++ [child]) true)
                entries))
        | _ => none
    | some _ => none

/- Apply a change to a table. -/
def changeTable (change : TableChange) : Toml → Option Toml
| .table kind entries => change kind entries
| _ => none

/- Put a value under a key that is not there yet. -/
def putNew
    (key : String)
    (value : Toml)
    (viaDots : Bool) : TableChange := fun kind entries =>
  if (kind = .dotted) != viaDots then none
  else if (Keyed.get? key entries).isSome then none
  else some (.table kind (Keyed.put key value entries))

/- Insert a pair with a dotted key into a table. -/
def insertPair
    (path : List String)
    (key : String)
    (value : Toml) : TableChange :=
  changeAt true (putNew key value (!path.isEmpty)) path

/- Begin the table of a header. -/
def openTable (key : String) : TableChange := fun kind entries =>
  match Keyed.get? key entries with
  | none =>
      some (.table kind (Keyed.put key (.table .explicit []) entries))
  | some (.table .implied children) =>
      some (.table kind
        (Keyed.put key (.table .explicit children) entries))
  | some _ => none

/- Begin another table of an array of tables. -/
def openElement (key : String) : TableChange := fun kind entries =>
  match Keyed.get? key entries with
  | none =>
      some (.table kind
        (Keyed.put key (.array [.table .explicit []] true) entries))
  | some (.array items true) =>
      some (.table kind
        (Keyed.put key (.array (items ++ [.table .explicit []]) true)
          entries))
  | some _ => none

/- The value under a key of a table. -/
def get?
    (key : String) : Toml → Option Toml
| .table _ entries => Keyed.get? key entries
| _ => none

end Toml

end Bindery

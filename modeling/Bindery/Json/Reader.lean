import Bindery.Json.NumberReader
import Bindery.Json.StringReader
import Bindery.Keyed

/-
  This file defines how documents are read, and the readers of
  lists and objects out of which readers of particular shapes
  are made.

  Key definitions include:
    * `readSequence`
    * `foldMembers`
    * `readValue`
    * `failUnexpected`
-/

namespace Bindery.Json

------------------------------------------------------------
-- Lists
------------------------------------------------------------

/-
  Go to the next element of a list.  The value says whether
  there is one; the end of the list is not passed.
-/
def nextElement (first : Bool) : Reader Bool := fun c =>
  let c := c.skipBlanks
  match c.rest with
  | [] => c.failAhead .endInList
  | x :: _ =>
      if x = ']' then .ok (false, c)
      else if first then .ok (true, c)
      else if x = ',' then
        let c := c.next.skipBlanks
        match c.rest with
        | [] => c.failAhead .endInValue
        | y :: _ =>
            if y = ']' then c.failAhead .trailingComma
            else .ok (true, c)
      else
        c.failAhead .expectedListEnd

/- Read the elements of a list up to and including its end. -/
def readElements
    {α : Type}
    (element : Reader α) : Nat → Bool → Reader (List α)
| 0, _, c => c.failHere .endInList
| fuel + 1, first, c => do
    let (more, c) ← nextElement first c
    if more then
      let (value, c) ← element c
      let (values, c) ← readElements element fuel false c
      .ok (value :: values, c)
    else
      .ok ([], c.next)

/- Read a list after its opening bracket. -/
def readSequence
    {α : Type}
    (element : Reader α) : Reader (List α) := fun c =>
  readElements element (c.rest.length + 1) true c

/-
  Close a list of known length: nothing but its end may
  follow.
-/
def closeList : Reader Unit := fun c =>
  let c := c.skipBlanks
  match c.rest with
  | [] => c.failAhead .endInList
  | x :: _ =>
      if x = ']' then .ok ((), c.next)
      else if x = ',' then
        let c := c.next.skipBlanks
        match c.rest with
        | ']' :: _ => c.failAhead .trailingComma
        | _ => c.failAhead .trailingCharacters
      else
        c.failAhead .trailingCharacters

------------------------------------------------------------
-- Objects
------------------------------------------------------------

/-
  Go to the quote of the next key of an object.  The value
  says whether there is one; the end is not passed.
-/
def nextKey (first : Bool) : Reader Bool := fun c =>
  let c := c.skipBlanks
  match c.rest with
  | [] => c.failAhead .endInObject
  | x :: _ =>
      if x = '}' then .ok (false, c)
      else if first then
        if x = '"' then .ok (true, c)
        else c.failAhead .keyNotString
      else if x = ',' then
        let c := c.next.skipBlanks
        match c.rest with
        | [] => c.failAhead .endInValue
        | y :: _ =>
            if y = '"' then .ok (true, c)
            else if y = '}' then c.failAhead .trailingComma
            else c.failAhead .keyNotString
      else
        c.failAhead .expectedObjectEnd

/- Read the colon between a key and its value. -/
def readColon : Reader Unit := fun c =>
  let c := c.skipBlanks
  match c.rest with
  | [] => c.failAhead .endInObject
  | x :: _ =>
      if x = ':' then .ok ((), c.next)
      else c.failAhead .expectedColon

/-
  Read the members of an object up to its end, which is not
  passed.  `step` reads the colon and the value of a key.
-/
def foldMembersFrom
    {σ : Type}
    (step : σ → String → Reader σ) : Nat → Bool → σ → Reader σ
| 0, _, _, c => c.failHere .endInObject
| fuel + 1, first, state, c => do
    let (more, c) ← nextKey first c
    if more then
      let (key, c) ← readString c.next
      let (state, c) ← step state key c
      foldMembersFrom step fuel false state c
    else
      .ok (state, c)

/- Read the members of an object after its opening brace. -/
def foldMembers
    {σ : Type}
    (step : σ → String → Reader σ)
    (state : σ) : Reader σ := fun c =>
  foldMembersFrom step (c.rest.length + 1) true state c

------------------------------------------------------------
-- Values
------------------------------------------------------------

/- Expect the characters of a word. -/
def readWord : List Char → Reader Unit
| [], c => .ok ((), c)
| x :: word, c =>
    match c.rest with
    | [] => c.failHere .endInValue
    | y :: _ =>
        if x = y then readWord word c.next
        else c.failAhead .expectedIdent

/-
  Read a value.  The first argument says how deep lists and
  objects may be nested in it.
-/
def readValue : Nat → Reader Json
| depth, c =>
    let c := c.skipBlanks
    match c.rest with
    | [] => c.failAhead .endInValue
    | x :: _ =>
        if x = 'n' then do
          let (_, c) ← readWord ['u', 'l', 'l'] c.next
          .ok (.null, c)
        else if x = 't' then do
          let (_, c) ← readWord ['r', 'u', 'e'] c.next
          .ok (.bool true, c)
        else if x = 'f' then do
          let (_, c) ← readWord ['a', 'l', 's', 'e'] c.next
          .ok (.bool false, c)
        else if x = '-' then
          readNumber false c.next
        else if x.isDigit then
          readNumber true c
        else if x = '"' then do
          let (s, c) ← readString c.next
          .ok (.text s, c)
        else if x = '[' then
          match depth with
          | 0 => c.failAhead .recursionLimit
          | inner + 1 => do
              let (items, c) ← readSequence (readValue inner) c.next
              .ok (.array items, c)
        else if x = '{' then
          match depth with
          | 0 => c.failAhead .recursionLimit
          | inner + 1 => do
              let (members, c) ←
                foldMembers
                  (fun members key c => do
                    let (_, c) ← readColon c
                    let (value, c) ← readValue inner c
                    .ok (Keyed.put key value members, c))
                  [] c.next
              .ok (.object members, c.next)
        else
          c.failAhead .expectedValue

/- How deep a document may be nested. -/
def maxDepth : Nat :=
  127

------------------------------------------------------------
-- Unexpected Kinds
------------------------------------------------------------

/- How a scalar is named when it stands in the wrong place. -/
def Found.ofScalar : Json → Found
| .null => .null
| .bool b => .bool b
| .int n => .int n
| .float x => .float x
| .text s => .text s
| .array _ => .sequence
| .object _ => .map

/-
  Report the value that stands where `expected` should stand.
  Scalars are read first, lists and objects are not.
-/
def failUnexpected
    {α : Type}
    (expected : String) : Reader α := fun c =>
  match c.rest with
  | '[' :: _ => c.failHere (.wrongType .sequence expected)
  | '{' :: _ => c.failHere (.wrongType .map expected)
  | _ =>
      match readValue 0 c with
      | .ok (value, c) =>
          c.failHere (.wrongType (Found.ofScalar value) expected)
      | .error e => .error e

end Bindery.Json

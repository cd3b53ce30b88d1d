import Bindery.Json.Fault

/-
  This file defines a place in a text that is being read.

  Key definitions include:
    * `Cursor`
    * `Cursor.next`
    * `Cursor.skipBlanks`
    * `Cursor.failHere`
    * `Cursor.failAhead`
    * `Reader`
-/

namespace Bindery.Json

/-
  What is left of a text, with the line and the byte column
  that were reached.
-/
structure Cursor where
  rest : List Char
  line : Nat
  column : Nat
deriving Repr

/- Reading yields a value and the place after it. -/
abbrev Reader (α : Type) :=
  Cursor → Except ReadError (α × Cursor)

namespace Cursor

/- The start of a text. -/
def start (text : String) : Cursor :=
  ⟨text.toList, 1, 0⟩

/- The place after one more character. -/
def next (c : Cursor) : Cursor :=
  match c.rest with
  | [] => c
  | x :: rest =>
      if x = '\n' then ⟨rest, c.line + 1, 0⟩
      else ⟨rest, c.line, c.column + x.utf8Size⟩

/- The place after several more characters. -/
def advance : Nat → Cursor → Cursor
| 0, c => c
| n + 1, c => advance n c.next

/-
  The place `n` bytes further in a text.  It may lie within a
  character, in which case only its line and column count.
-/
def passBytes
    (line column n : Nat) : List Char → Cursor
| [] => ⟨[], line, column⟩
| x :: rest =>
    if n = 0 then ⟨x :: rest, line, column⟩
    else if x = '\n' then passBytes (line + 1) 0 (n - 1) rest
    else if x.utf8Size ≤ n then
      passBytes line (column + x.utf8Size) (n - x.utf8Size) rest
    else
      ⟨x :: rest, line, column + n⟩

/- The place after several more bytes. -/
def advanceBytes
    (n : Nat)
    (c : Cursor) : Cursor :=
  passBytes c.line c.column n c.rest

/- Blanks between the tokens of a document. -/
def isGap (c : Char) : Bool :=
  c = ' ' || c = '\n' || c = '\t' || c = '\r'

/- Skip the blanks at the front of a text. -/
def skipFrom
    (line column : Nat) : List Char → Cursor
| [] => ⟨[], line, column⟩
| x :: rest =>
    if isGap x then
      if x = '\n' then skipFrom (line + 1) 0 rest
      else skipFrom line (column + 1) rest
    else
      ⟨x :: rest, line, column⟩

/- The place of the next character that is not blank. -/
def skipBlanks (c : Cursor) : Cursor :=
  skipFrom c.line c.column c.rest

/- A fault at this place. -/
def failHere
    {α : Type}
    (c : Cursor)
    (fault : Fault) : Except ReadError α :=
  .error ⟨fault, c.line, c.column⟩

/-
  A fault at the next byte: the place is the one after that
  byte, or this one at the end of the text.
-/
def failAhead
    {α : Type}
    (c : Cursor)
    (fault : Fault) : Except ReadError α :=
  match c.rest with
  | [] => .error ⟨fault, c.line, c.column⟩
  | x :: _ =>
      if x = '\n' then .error ⟨fault, c.line + 1, 0⟩
      else .error ⟨fault, c.line, c.column + 1⟩

end Cursor

end Bindery.Json

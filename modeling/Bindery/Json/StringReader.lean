import Bindery.Json.Cursor
import Bindery.Text.Utf8

/-
  This file defines how the strings of a document are read.

  Key definitions include:
    * `hexValue`
    * `readHex`
    * `readEscape`
    * `readString`
-/

namespace Bindery.Json

/- The value of a hexadecimal digit. -/
def hexValue (c : Char) : Option Nat :=
  if '0' ≤ c && c ≤ '9' then some (c.toNat - 48)
  else if 'a' ≤ c && c ≤ 'f' then some (c.toNat - 87)
  else if 'A' ≤ c && c ≤ 'F' then some (c.toNat - 55)
  else none

/- The value of four hexadecimal digits. -/
def hexFour (a b c d : Char) : Option Nat := do
  let a ← hexValue a
  let b ← hexValue b
  let c ← hexValue c
  let d ← hexValue d
  pure (((a * 16 + b) * 16 + c) * 16 + d)

/- Read the four bytes of a hexadecimal escape. -/
def readHex : Reader Nat := fun c =>
  if Text.byteLength (c.rest.take 4) < 4 then
    (c.advance c.rest.length).failHere .endInString
  else
    match c.rest with
    | x :: y :: z :: w :: _ =>
        match hexFour x y z w with
        | some n => .ok (n, c.advance 4)
        | none => (c.advanceBytes 4).failHere .invalidEscape
    | _ => (c.advanceBytes 4).failHere .invalidEscape

/- Whether a number is the first half of a surrogate pair. -/
def isLeading (n : Nat) : Bool :=
  0xD800 ≤ n && n ≤ 0xDBFF

/- Whether a number is the second half of a surrogate pair. -/
def isTrailing (n : Nat) : Bool :=
  0xDC00 ≤ n && n ≤ 0xDFFF

/- Expect one character of the escape of a second half. -/
def readPairMark (mark : Char) : Reader Unit := fun c =>
  match c.rest with
  | [] => c.failHere .endInString
  | x :: _ =>
      if x = mark then .ok ((), c.next)
      else c.failAhead .hexEscapeEnd

/- Read the character of a hexadecimal escape after its mark. -/
def readUnicode : Reader Char := fun c => do
  let (n, c) ← readHex c
  if isTrailing n then
    c.failHere .loneSurrogate
  else if isLeading n then
    let (_, c) ← readPairMark '\\' c
    let (_, c) ← readPairMark 'u' c
    let (m, c) ← readHex c
    if isTrailing m then
      .ok (Char.ofNat ((n - 0xD800) * 1024 + (m - 0xDC00) + 0x10000), c)
    else
      c.failHere .loneSurrogate
  else
    .ok (Char.ofNat n, c)

/- Read the character of an escape after its backslash. -/
def readEscape : Reader Char := fun c =>
  match c.rest with
  | [] => c.failHere .endInString
  | x :: _ =>
      if x = '"' || x = '\\' || x = '/' then .ok (x, c.next)
      else if x = 'b' then .ok ('\x08', c.next)
      else if x = 'f' then .ok ('\x0c', c.next)
      else if x = 'n' then .ok ('\n', c.next)
      else if x = 'r' then .ok ('\r', c.next)
      else if x = 't' then .ok ('\t', c.next)
      else if x = 'u' then readUnicode c.next
      else c.failAhead .invalidEscape

/- Read the rest of a string; `before` is what was read, backwards. -/
def readStringFrom : Nat → List Char → Reader String
| 0, _, c => c.failHere .endInString
| fuel + 1, before, c =>
    match c.rest with
    | [] => c.failHere .endInString
    | x :: _ =>
        if x = '"' then
          .ok (String.ofList before.reverse, c.next)
        else if x = '\\' then
          match readEscape c.next with
          | .ok (y, c) => readStringFrom fuel (y :: before) c
          | .error e => .error e
        else if x.toNat < 32 then
          c.failAhead .controlCharacter
        else
          readStringFrom fuel (x :: before) c.next

/- Read a string after its opening quote. -/
def readString : Reader String := fun c =>
  readStringFrom (c.rest.length + 1) [] c

end Bindery.Json

import Bindery.Decimal.Reading
import Bindery.Json.Cursor

/-
  This file defines how the numbers of a document are read.

  The digits of a number are gathered in a significand below
  `2 ^ 64`.  Digits for which it has no room are dropped:
  those before the point then count in the exponent, those
  after it not at all.

  Key definitions include:
    * `absorb`
    * `readNumber`
-/

namespace Bindery.Json

/- The value of a decimal digit. -/
def digitValue (c : Char) : Nat :=
  c.toNat - 48

/-
  Append digits to a significand while it stays below
  `2 ^ 64`; the digits without room are returned.
-/
def absorb : Nat → List Char → Nat × List Char
| n, [] => (n, [])
| n, d :: rest =>
    if n * 10 + digitValue d < 0x10000000000000000 then
      absorb (n * 10 + digitValue d) rest
    else
      (n, d :: rest)

/- The digits at the front of a text. -/
def digitsAt (c : Cursor) : List Char :=
  c.rest.takeWhile Char.isDigit

/- A floating-point number with its sign. -/
def signed (positive : Bool) (x : Float) : Json :=
  .float (if positive then x else -x)

/- The number made of a significand and a decimal exponent. -/
def scaledNumber
    (positive : Bool)
    (significand : Nat)
    (exponent : Int) : Reader Json := fun c =>
  match Reading.scaled significand exponent with
  | .ok x => .ok (signed positive x, c)
  | .error .outOfRange => c.failHere .numberOutOfRange

/-
  Append digits to an exponent while it stays below `2 ^ 31`;
  also the number of digits that were read, and whether the
  last of them had no room.
-/
def absorbExponent : Nat → Nat → List Char → Nat × Nat × Bool
| n, count, [] => (n, count, false)
| n, count, d :: rest =>
    if n * 10 + digitValue d < 0x80000000 then
      absorbExponent (n * 10 + digitValue d) (count + 1) rest
    else
      (n, count + 1, true)

/- Read an exponent after its letter. -/
def readExponent
    (positive : Bool)
    (significand : Nat)
    (start : Int) : Reader Json := fun c =>
  let up := c.rest.head? ≠ some '-'
  let c := match c.rest with
    | '+' :: _ => c.next
    | '-' :: _ => c.next
    | _ => c
  match c.rest with
  | [] => c.failHere .endInValue
  | d :: _ =>
      if d.isDigit then
        let digits := digitsAt c
        let (exponent, count, overflow) := absorbExponent 0 0 digits
        if overflow then
          if significand ≠ 0 ∧ up then
            (c.advance count).failHere .numberOutOfRange
          else
            .ok (signed positive 0.0, c.advance digits.length)
        else
          scaledNumber positive significand
            (if up then start + exponent else start - exponent)
            (c.advance digits.length)
      else
        c.failAhead .invalidNumber

/- Read the digits after a point, and the exponent if there is one. -/
def readFraction
    (positive : Bool)
    (significand : Nat)
    (start : Int) : Reader Json := fun c =>
  let digits := digitsAt c
  let (significand, left) := absorb significand digits
  if digits.isEmpty then
    match c.rest with
    | [] => c.failHere .endInValue
    | _ => c.failAhead .invalidNumber
  else
    let exponent := start - ((digits.length - left.length : Nat) : Int)
    let c := c.advance digits.length
    match c.rest with
    | 'e' :: _ => readExponent positive significand exponent c.next
    | 'E' :: _ => readExponent positive significand exponent c.next
    | _ => scaledNumber positive significand exponent c

/- An integer, or a floating-point number if it is out of range. -/
def integerValue
    (positive : Bool)
    (n : Nat) : Json :=
  if positive then .int n
  else if n = 0 ∨ 0x8000000000000000 < n then .float (-(n.toUInt64.toFloat))
  else .int (-(n : Int))

/- Read what follows the digits before the point. -/
def readAfterDigits
    (positive : Bool)
    (significand dropped : Nat) : Reader Json := fun c =>
  match c.rest with
  | '.' :: _ => readFraction positive significand dropped c.next
  | 'e' :: _ => readExponent positive significand dropped c.next
  | 'E' :: _ => readExponent positive significand dropped c.next
  | _ =>
      if dropped = 0 then
        .ok (integerValue positive significand, c)
      else
        scaledNumber positive significand dropped c

/- Read a number after its sign. -/
def readNumber (positive : Bool) : Reader Json := fun c =>
  match c.rest with
  | [] => c.failHere .endInValue
  | d :: _ =>
      if d = '0' then
        match c.next.rest with
        | x :: _ =>
            if x.isDigit then c.next.failAhead .invalidNumber
            else readAfterDigits positive 0 0 c.next
        | [] => readAfterDigits positive 0 0 c.next
      else if d.isDigit then
        let digits := digitsAt c
        let (significand, left) := absorb 0 digits
        readAfterDigits positive significand left.length
          (c.advance digits.length)
      else
        c.failAhead .invalidNumber

end Bindery.Json

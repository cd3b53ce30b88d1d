/-
  This file defines how decimal digits are read as
  floating-point numbers.

  `nearest` is the correctly rounded reading.  `scaled` is a
  quicker one: the digits are rounded once and then multiplied
  or divided by a power of ten, so that the result may be off
  by a few units in the last place.

  Key definitions include:
    * `Reading.nearest`
    * `Reading.scaled`
-/

namespace Bindery.Reading

/- The floating-point number nearest to `10 ^ n`. -/
def powerOfTen (n : Nat) : Float :=
  Float.ofScientific 1 false n

/- The floating-point number nearest to `digits * 10 ^ exponent`. -/
def nearest
    (digits : Nat)
    (exponent : Int) : Float :=
  if digits = 0 then 0.0
  else
    let size := exponent + ((Nat.toDigits 10 digits).length : Int)
    if 400 < size then 1.0 / 0.0
    else if size < -400 then 0.0
    else Float.ofScientific digits (exponent < 0) exponent.natAbs

/- Why a number has no scaled reading. -/
inductive ScaleError
| outOfRange
deriving DecidableEq, Repr

/-
  Divide by `10 ^ 308` until the exponent that is left is in
  the range of a single division.
-/
def scaleDown : Nat → Float → Int → Float
| 0, x, _ => x
| fuel + 1, x, exponent =>
    if -308 ≤ exponent then
      x / powerOfTen exponent.natAbs
    else if x == 0.0 then x
    else scaleDown fuel (x / powerOfTen 308) (exponent + 308)

/-
  Scale an integer below `2 ^ 64` by a power of ten.  Four
  divisions by `10 ^ 308` leave nothing of any integer.
-/
def scaled
    (digits : Nat)
    (exponent : Int) : Except ScaleError Float :=
  let x := digits.toUInt64.toFloat
  if exponent < 0 then
    .ok (scaleDown 4 x exponent)
  else if exponent ≤ 308 then
    let y := x * powerOfTen exponent.toNat
    if y.isInf then .error .outOfRange else .ok y
  else if x == 0.0 then .ok x
  else .error .outOfRange

end Bindery.Reading

import Bindery.Decimal.Shortest

/-
  This file defines how floating-point numbers are written.
  The digits are always the shortest ones; a layout says which
  numbers are written with an exponent and how.

  Key definitions include:
    * `Layout`
    * `Layout.write`
    * `Layout.plain`
    * `Layout.data`
    * `Layout.listed`
-/

namespace Bindery

/-
  How a finite number is written.  `positional e` says that a
  number whose first digit stands for `10 ^ e` is written
  without an exponent; `plus` puts a sign before exponents
  that are not negative.
-/
structure Layout where
  positional : Int → Bool
  plus : Bool

namespace Layout

/- Never an exponent. -/
def plain : Layout :=
  ⟨fun _ => true, false⟩

/- An exponent below `10 ^ -5` and from `10 ^ 16` on, as in `1e+16`. -/
def data : Layout :=
  ⟨fun e => -5 ≤ e && e < 16, true⟩

/- An exponent below `10 ^ -4` and from `10 ^ 16` on, as in `1e16`. -/
def listed : Layout :=
  ⟨fun e => -4 ≤ e && e < 16, false⟩

/- Digits with a point, at least one digit on either side. -/
def positionalText (d : Decimal) : List Char :=
  let digits := Nat.toDigits 10 d.digits
  if 0 ≤ d.exponent then
    digits ++ List.replicate d.exponent.toNat '0' ++ ['.', '0']
  else
    let places := (-d.exponent).toNat
    let padded :=
      List.replicate (places + 1 - digits.length) '0' ++ digits
    let whole := padded.length - places
    padded.take whole ++ ['.'] ++ padded.drop whole

/- The first digit, the others after a point, and the exponent. -/
def exponentText
    (l : Layout)
    (digits : List Char)
    (e : Int) : List Char :=
  let rest := digits.drop 1
  digits.take 1 ++ (if rest.isEmpty then [] else '.' :: rest) ++
    ['e'] ++
    (if e < 0 then ['-'] else if l.plus then ['+'] else []) ++
    Nat.toDigits 10 e.natAbs

/- A positive decimal in a layout. -/
def decimalText
    (l : Layout)
    (d : Decimal) : List Char :=
  let digits := Nat.toDigits 10 d.digits
  let e := d.exponent + (digits.length : Int) - 1
  if l.positional e then positionalText d
  else l.exponentText digits e

/- A finite floating-point number in a layout. -/
def write
    (l : Layout)
    (x : Float) : List Char :=
  let negative := 0x8000000000000000 ≤ x.toBits.toNat
  let b := Binary.ofFloat x
  (if negative then ['-'] else []) ++
    (if b.mantissa = 0 then ['0', '.', '0']
     else l.decimalText (shortest b))

end Layout

end Bindery

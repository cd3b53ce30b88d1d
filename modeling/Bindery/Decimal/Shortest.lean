/-
  This file defines the shortest decimal numbers that read
  back as a given binary floating-point number.

  A positive number is `mantissa * 2 ^ exponent`.  The reals
  that round to it form an interval, which contains its ends
  when the mantissa is even.  For one digit, two digits, and
  so on, the two decimals next to the number are tried; the
  first one inside the interval is taken, the nearer one if
  both are inside.  Seventeen digits always suffice.

  Key definitions include:
    * `Binary`
    * `Binary.ofFloat`
    * `Decimal`
    * `shortest`
-/

namespace Bindery

/- The number `mantissa * 2 ^ exponent`. -/
structure Binary where
  mantissa : Nat
  exponent : Int
  -- whether the next smaller number is only half a step away
  atPowerOfTwo : Bool
deriving Repr, DecidableEq

/- The absolute value of a finite floating-point number. -/
def Binary.ofFloat (x : Float) : Binary :=
  let bits : Nat := x.toBits.toNat
  let fraction : Nat := bits % 0x10000000000000
  let biased : Nat := bits / 0x10000000000000 % 2048
  if biased = 0 then
    ⟨fraction, -1074, false⟩
  else
    ⟨0x10000000000000 + fraction, (biased : Int) - 1075,
      fraction == 0 && 1 < biased⟩

/- The number `digits * 10 ^ exponent`. -/
structure Decimal where
  digits : Nat
  exponent : Int
deriving Repr, DecidableEq

namespace Decimal

/- Divide by ten while the last digit is zero. -/
def stripZeros : Nat → Nat → Int → Decimal
| 0, digits, exponent => ⟨digits, exponent⟩
| fuel + 1, digits, exponent =>
    if digits ≠ 0 ∧ digits % 10 = 0 then
      stripZeros fuel (digits / 10) (exponent + 1)
    else
      ⟨digits, exponent⟩

/- A decimal whose last digit is not zero. -/
def normalize (d : Decimal) : Decimal :=
  stripZeros (d.digits + 1).log2.succ d.digits d.exponent

/- Raise an estimate while `10 ^ (estimate + 1) ≤ top / bottom`. -/
def raiseExponent
    (top bottom : Nat) : Nat → Int → Int
| 0, e => e
| fuel + 1, e =>
    let next := e + 1
    let reached :=
      if 0 ≤ next then bottom * Nat.pow 10 next.toNat ≤ top
      else bottom ≤ top * Nat.pow 10 (-next).toNat
    if reached then raiseExponent top bottom fuel next else e

/- The greatest `e` with `10 ^ e ≤ top / bottom`. -/
def leadingExponent (top bottom : Nat) : Int :=
  let binary : Int := (top.log2 : Int) - (bottom.log2 : Int)
  raiseExponent top bottom 8 (binary * 30103 / 100000 - 3)

/-
  Try grids of `count` digits and more.  The number is
  `mid / bottom`, its interval `low / bottom` to
  `high / bottom`, and its first digit stands for
  `10 ^ leading`.
-/
def search
    (low mid high bottom : Nat)
    (closed : Bool)
    (leading : Int) : Nat → Nat → Decimal
| 0, count => ⟨mid / bottom, count⟩
| fuel + 1, count =>
    let unit : Int := leading - (count : Int) + 1
    let up := if unit < 0 then Nat.pow 10 (-unit).toNat else 1
    let down := if unit < 0 then 1 else Nat.pow 10 unit.toNat
    let grid := bottom * down
    let below := mid * up / grid
    let above := below + 1
    let inside (d : Nat) : Bool :=
      if closed then
        low * up ≤ d * grid && d * grid ≤ high * up
      else
        low * up < d * grid && d * grid < high * up
    let nearBelow := mid * up - below * grid
    let nearAbove := above * grid - mid * up
    match inside below, inside above with
    | true, true =>
        if nearBelow < nearAbove ||
            (nearBelow == nearAbove && below % 2 == 0) then
          ⟨below, unit⟩
        else
          ⟨above, unit⟩
    | true, false => ⟨below, unit⟩
    | false, true => ⟨above, unit⟩
    | false, false =>
        search low mid high bottom closed leading fuel (count + 1)

end Decimal

/- The shortest decimal that reads back as a positive number. -/
def shortest (b : Binary) : Decimal :=
  let quarter := b.exponent - 2
  let scale := if 0 ≤ quarter then Nat.pow 2 quarter.toNat else 1
  let bottom := if 0 ≤ quarter then 1 else Nat.pow 2 (-quarter).toNat
  let mid := 4 * b.mantissa * scale
  let low := mid - (if b.atPowerOfTwo then 1 else 2) * scale
  let high := mid + 2 * scale
  (Decimal.search low mid high bottom
    (b.mantissa % 2 == 0)
    (Decimal.leadingExponent mid bottom) 17 1).normalize

end Bindery

import Bindery.Template.Compare

/-
  This file defines the operators of expressions.

  Integers lie between `-2 ^ 127` and `2 ^ 127`; a result
  beyond that is an error.  If one operand of an arithmetic
  operator is floating-point, so is the result.

  Key definitions include:
    * `BinaryOperator`
    * `BinaryOperator.apply`
    * `UnaryOperator`
    * `UnaryOperator.apply`
    * `Value.slice`
-/

namespace Bindery.Template

------------------------------------------------------------
-- Floating-point Remainders
------------------------------------------------------------

/- The whole part of a floating-point number. -/
def truncate (x : Float) : Float :=
  if x < 0.0 then x.ceil else x.floor

/-
  What is left of `x` after taking away `y` a whole number of
  times, with the sign of `x`.  The remainder of two binary
  fractions is exact.
-/
def floatRemainder (x y : Float) : Float :=
  if !x.isFinite || y.isNaN || y == 0.0 then 0.0 / 0.0
  else if y.isInf then x
  else
    let a := Binary.ofFloat x
    let b := Binary.ofFloat y
    let e := min a.exponent b.exponent
    let n := a.mantissa * Nat.pow 2 (a.exponent - e).toNat
    let d := b.mantissa * Nat.pow 2 (b.exponent - e).toNat
    let r := (n % d).toUInt64.toFloat.scaleB e
    if 0x8000000000000000 ≤ x.toBits.toNat then -r else r

/- The quotient whose remainder is not negative. -/
def floatQuotient (x y : Float) : Float :=
  let q := truncate (x / y)
  if floatRemainder x y < 0.0 then
    if 0.0 < y then q - 1.0 else q + 1.0
  else q

------------------------------------------------------------
-- Operands
------------------------------------------------------------

/- Two numbers of one kind. -/
inductive Operands where
| ints (a b : Int)
| floats (a b : Float)

/- Two numbers brought to one kind. -/
def Operands.of? : Value → Value → Option Operands
| .float a, y => y.toFloat?.map (Operands.floats a)
| x, .float b => x.toFloat?.map (fun a => Operands.floats a b)
| x, y =>
    match x.integer?, y.integer? with
    | some a, some b => some (.ints a b)
    | _, _ => none

/- An integer result, refused if it is out of range. -/
def checkedInt (n : Int) : Except TemplateError Value :=
  if Value.inRange n then .ok (.int n) else .error .invalidOperation

/- Apply one of two functions to two numbers. -/
def onNumbers
    (onInts : Int → Int → Except TemplateError Value)
    (onFloats : Float → Float → Float)
    (x y : Value) : Except TemplateError Value :=
  match Operands.of? x y with
  | some (.ints a b) => onInts a b
  | some (.floats a b) => .ok (.float (onFloats a b))
  | none => .error .invalidOperation

/-
  The power of an integer.  A base other than -1, 0 and 1
  leaves the range at the latest with the exponent 128.
-/
def intPower (a b : Int) : Except TemplateError Value :=
  if b < 0 || 0x100000000 ≤ b then .error .invalidOperation
  else if a.natAbs ≤ 1 then
    .ok (.int (if b = 0 then 1 else if b % 2 = 0 then a * a else a))
  else if 128 ≤ b then .error .invalidOperation
  else checkedInt (Int.pow a b.toNat)

/- How often something is repeated. -/
def repetitions (count : Value) : Except TemplateError Nat :=
  match count.wholeNumber? with
  | some n => if n < 0 then .error .invalidOperation else .ok n.toNat
  | none => .error .invalidOperation

/- A text several times in a row. -/
def repeatText
    (s : String)
    (count : Value) : Except TemplateError Value := do
  let n ← repetitions count
  .ok (.plain (String.join (List.replicate n s)))

/- The elements of a list several times in a row. -/
def repeatList
    (items : List Value)
    (count : Value) : Except TemplateError Value := do
  let n ← repetitions count
  .ok (.list (List.replicate n items).flatten)

------------------------------------------------------------
-- Binary Operators
------------------------------------------------------------

/- An operator between two operands that are both evaluated. -/
inductive BinaryOperator where
| add
| subtract
| multiply
| divide
| floorDivide
| remainder
| power
| concatenate
| equal
| different
| less
| lessOrEqual
| greater
| greaterOrEqual
| isIn
deriving DecidableEq, Repr

/- The sum of numbers, or texts or lists one after the other. -/
def sum : Value → Value → Except TemplateError Value
| .text s _, .text t _ => .ok (.plain (s ++ t))
| .list xs, .list ys => .ok (.list (xs ++ ys))
| x, y => onNumbers (fun a b => checkedInt (a + b)) (· + ·) x y

/- The product of numbers, or a text or list repeated. -/
def product : Value → Value → Except TemplateError Value
| .text s _, count => repeatText s count
| count, .text s _ => repeatText s count
| .list items, count => repeatList items count
| count, .list items => repeatList items count
| x, y => onNumbers (fun a b => checkedInt (a * b)) (· * ·) x y

/- The quotient of numbers, which is always floating-point. -/
def quotient (x y : Value) : Except TemplateError Value :=
  match x.toFloat?, y.toFloat? with
  | some a, some b => .ok (.float (a / b))
  | _, _ => .error .invalidOperation

/- An integer operation that division by zero has no result for. -/
def unlessZero
    (f : Int → Int → Int)
    (a b : Int) : Except TemplateError Value :=
  if b = 0 then .error .invalidOperation else checkedInt (f a b)

/- The value of an operator at two operands. -/
def BinaryOperator.apply :
    BinaryOperator → Value → Value → Except TemplateError Value
| .add, x, y => sum x y
| .subtract, x, y =>
    onNumbers (fun a b => checkedInt (a - b)) (· - ·) x y
| .multiply, x, y => product x y
| .divide, x, y => quotient x y
| .floorDivide, x, y =>
    onNumbers (unlessZero Int.ediv) floatQuotient x y
| .remainder, x, y =>
    onNumbers (unlessZero Int.emod) floatRemainder x y
| .power, x, y => onNumbers intPower Float.pow x y
| .concatenate, x, y => .ok (.plain (x.display ++ y.display))
| .equal, x, y => .ok (.bool (Value.same x y))
| .different, x, y => .ok (.bool (!Value.same x y))
| .less, x, y => .ok (.bool (Value.order x y == .lt))
| .lessOrEqual, x, y => .ok (.bool (Value.order x y != .gt))
| .greater, x, y => .ok (.bool (Value.order x y == .gt))
| .greaterOrEqual, x, y => .ok (.bool (Value.order x y != .lt))
| .isIn, x, y => do
    let found ← Value.contains y x
    .ok (.bool found)

------------------------------------------------------------
-- Unary Operators
------------------------------------------------------------

/- An operator before one operand. -/
inductive UnaryOperator where
| negate
| not
deriving DecidableEq, Repr

/- The value of an operator at an operand. -/
def UnaryOperator.apply :
    UnaryOperator → Value → Except TemplateError Value
| .not, x => .ok (.bool (!x.isTrue))
| .negate, .int n => checkedInt (-n)
| .negate, .float x => .ok (.float (-x))
| .negate, _ => .error .invalidOperation

------------------------------------------------------------
-- Slices
------------------------------------------------------------

/- A bound of a slice as a place in a list of a length. -/
def boundAt
    (length : Nat)
    (bound : Int) : Nat :=
  if bound < 0 then ((length : Int) + bound).toNat
  else min bound.toNat length

/- Every `step`-th of some elements, from the first one on. -/
def everyFrom
    {α : Type}
    (step : Nat) : Nat → List α → List α
| _, [] => []
| 0, x :: rest => x :: everyFrom step (step - 1) rest
| skip + 1, _ :: rest => everyFrom step skip rest

/- A slice that goes forward. -/
def sliceForward
    {α : Type}
    (items : List α)
    (start stop : Option Int)
    (step : Nat) : List α :=
  let first := boundAt items.length (start.getD 0)
  let last := boundAt items.length (stop.getD items.length)
  everyFrom step 0 ((items.take last).drop first)

/-
  A slice that goes backward from its start; without a stop it
  reaches the first element.
-/
def sliceBackward
    {α : Type}
    (items : List α)
    (start stop : Option Int)
    (step : Nat) : List α :=
  let length := items.length
  let first : Nat :=
    match start with
    | none => length - 1
    | some bound => min (boundAt length bound) (length - 1)
  let last : Nat :=
    match stop with
    | none => 0
    | some bound => boundAt length bound
  let count : Nat :=
    if last = 0 then (first + step) / step
    else (first - last + step - 1) / step
  let taken := (items.take (first + 1)).reverse
  (everyFrom step 0 taken).take count

/- The optional bound of a slice. -/
def sliceBound : Value → Except TemplateError (Option Int)
| .none => .ok Option.none
| value =>
    match value.wholeNumber? with
    | some n => .ok (some n)
    | Option.none => .error .invalidOperation

/- A slice of a list with a step that may be negative. -/
def sliceItems
    {α : Type}
    (items : List α)
    (start stop : Option Int)
    (step : Int) : List α :=
  if items.isEmpty then []
  else if 0 < step then sliceForward items start stop step.toNat
  else sliceBackward items start stop step.natAbs

/- The slice of a value between two bounds. -/
def Value.slice
    (value start stop step : Value) : Except TemplateError Value := do
  let start ← sliceBound start
  let stop ← sliceBound stop
  let step ← sliceBound step
  let step := step.getD 1
  if step = 0 then .error .invalidOperation
  else
    match value with
    | .undefined => .ok (.list [])
    | .none => .ok (.list [])
    | .text s _ =>
        .ok (.plain (String.ofList (sliceItems s.toList start stop step)))
    | .list items => .ok (.list (sliceItems items start stop step))
    | _ => .error .invalidOperation

end Bindery.Template

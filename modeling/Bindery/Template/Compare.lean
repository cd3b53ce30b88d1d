import Bindery.Decimal.Reading
import Bindery.Template.Value
import Bindery.Text.Separated

/-
  This file defines when values are equal, how they are
  ordered, and which value is part of another.

  Numbers and truth values are equal when they denote the same
  number.  Values of different kinds are ordered by kind.

  Key definitions include:
    * `Value.wholeNumber?`
    * `Value.exactFloat?`
    * `Value.same`
    * `Value.order`
    * `Value.contains`
    * `Value.elements`
-/

namespace Bindery.Template.Value

------------------------------------------------------------
-- Numbers
------------------------------------------------------------

/- The floating-point number nearest to an integer. -/
def nearestFloat (n : Int) : Float :=
  let x := Reading.nearest n.natAbs 0
  if n < 0 then -x else x

/- The integer that a floating-point number is equal to. -/
def integral? (x : Float) : Option Int :=
  if x.isFinite then
    let b := Binary.ofFloat x
    let size : Option Nat :=
      if 0 ≤ b.exponent then some (b.mantissa * Nat.pow 2 b.exponent.toNat)
      else
        let divisor := Nat.pow 2 (-b.exponent).toNat
        if b.mantissa % divisor = 0 then some (b.mantissa / divisor)
        else Option.none
    size.map (fun n => if x < 0.0 then -(n : Int) else (n : Int))
  else
    Option.none

/-
  Whether an integer is in the range of arithmetic, from
  `-2 ^ 127` to below `2 ^ 127`.
-/
def inRange (n : Int) : Bool :=
  -0x80000000000000000000000000000000 ≤ n &&
    n < 0x80000000000000000000000000000000

/- The integer that a value stands for in arithmetic. -/
def integer? : Value → Option Int
| .bool b => some (if b then 1 else 0)
| .int n => if inRange n then some n else Option.none
| _ => Option.none

/- The integer that a value is equal to. -/
def wholeNumber? : Value → Option Int
| .float x =>
    match integral? x with
    | some n =>
        if -0x8000000000000000 ≤ n ∧ n < 0x8000000000000000 then
          some n
        else
          Option.none
    | Option.none => Option.none
| value => value.integer?

/- The floating-point number next to a number. -/
def toFloat? : Value → Option Float
| .bool b => some (if b then 1.0 else 0.0)
| .int n => some (nearestFloat n)
| .float x => some x
| _ => Option.none

/- The floating-point number that is equal to a number. -/
def exactFloat? : Value → Option Float
| .int n =>
    let x := nearestFloat n
    if integral? x = some n then some x else Option.none
| value => value.toFloat?

------------------------------------------------------------
-- Equality
------------------------------------------------------------

mutual

/- Whether two values are equal. -/
def same : Value → Value → Bool
| .undefined, .undefined => true
| .none, .none => true
| .text s _, .text t _ => s == t
| .list xs, .list ys => sameItems xs ys
| .map xs, .map ys => xs.length == ys.length && sameEntries xs ys
| .function f, .function g => f == g
| .float x, other =>
    match other.exactFloat? with
    | some y => x == y
    | Option.none => false
| .bool b, other => sameNumber (.bool b) other
| .int n, other => sameNumber (.int n) other
| _, _ => false

/- Whether a number or truth value is equal to a value. -/
def sameNumber (value other : Value) : Bool :=
  match other with
  | .float y =>
      match value.exactFloat? with
      | some x => x == y
      | Option.none => false
  | _ =>
      match value.integer?, other.integer? with
      | some n, some m => n == m
      | _, _ => false

/- Whether two lists have equal elements. -/
def sameItems : List Value → List Value → Bool
| [], [] => true
| x :: xs, y :: ys => same x y && sameItems xs ys
| _, _ => false

/- Whether every entry has an equal one in another map. -/
def sameEntries :
    List (Value × Value) → List (Value × Value) → Bool
| [], _ => true
| (key, value) :: rest, others =>
    others.any (fun other => same key other.1 && same value other.2) &&
      sameEntries rest others

end

------------------------------------------------------------
-- Order
------------------------------------------------------------

/- The place of a value's kind in the order of kinds. -/
def rank : Value → Nat
| .undefined => 0
| .none => 1
| .bool _ => 2
| .int _ => 3
| .float _ => 3
| .text _ _ => 4
| .list _ => 5
| .map _ => 6
| .function _ => 7

/- The order key of a floating-point number; -0.0 precedes 0.0. -/
def floatKey (x : Float) : Int :=
  let bits := x.toBits.toNat
  if 0x8000000000000000 ≤ bits then
    -((bits - 0x8000000000000000 : Nat) : Int) - 1
  else
    bits

mutual

/- The order of two values. -/
def order : Value → Value → Ordering
| .text s _, .text t _ => compare s t
| .list xs, .list ys => orderItems xs ys
| .map xs, .map ys => orderEntries xs ys
| x, y =>
    match compare x.rank y.rank with
    | .eq =>
        match x.integer?, y.integer? with
        | some n, some m => compare n m
        | _, _ =>
            match x.exactFloat?, y.exactFloat? with
            | some a, some b => compare (floatKey a) (floatKey b)
            | _, _ => .eq
    | different => different

/- The order of two lists, element by element. -/
def orderItems : List Value → List Value → Ordering
| [], [] => .eq
| [], _ :: _ => .lt
| _ :: _, [] => .gt
| x :: xs, y :: ys =>
    match order x y with
    | .eq => orderItems xs ys
    | different => different

/- The order of two maps, entry by entry. -/
def orderEntries :
    List (Value × Value) → List (Value × Value) → Ordering
| [], [] => .eq
| [], _ :: _ => .lt
| _ :: _, [] => .gt
| (k, v) :: xs, (l, w) :: ys =>
    match order k l with
    | .eq =>
        match order v w with
        | .eq => orderEntries xs ys
        | different => different
    | different => different

end

------------------------------------------------------------
-- Parts
------------------------------------------------------------

/- The value under a key of a map. -/
def valueUnder?
    (key : Value) : List (Value × Value) → Option Value
| [] => Option.none
| (k, v) :: rest => if same k key then some v else valueUnder? key rest

/- The characters of a text as texts. -/
def characters (s : String) : List Value :=
  s.toList.map (fun c => .plain (String.singleton c))

/- The elements of a list, or the keys of a map. -/
def objectElements? : Value → Option (List Value)
| .list items => some items
| .map entries => some (entries.map Prod.fst)
| _ => Option.none

/-
  What a loop over a value goes through.  Nothing comes from
  undefined values and none, characters come from texts.
-/
def elements : Value → Except TemplateError (List Value)
| .undefined => .ok []
| .none => .ok []
| .text s _ => .ok (characters s)
| .list items => .ok items
| .map entries => .ok (entries.map Prod.fst)
| _ => .error .invalidOperation

/- Whether a container holds a value. -/
def contains
    (container value : Value) : Except TemplateError Bool :=
  match container with
  | .undefined => .ok false
  | .text s _ => .ok (Text.occursIn value.display.toList s.toList)
  | .list items => .ok (items.any (fun item => same item value))
  | .map entries => .ok (valueUnder? value entries).isSome
  | .function _ => .ok false
  | _ => .error .invalidOperation

/- The element at an index, counted from the end if it is negative. -/
def atIndex
    {α : Type}
    (index : Int)
    (items : List α) : Option α :=
  if 0 ≤ index then items[index.toNat]?
  else
    let i := (items.length : Int) + index
    if 0 ≤ i then items[i.toNat]? else Option.none

/- The attribute of a value. -/
def attribute?
    (value : Value)
    (name : String) : Option Value :=
  match value with
  | .map entries => valueUnder? (.plain name) entries
  | _ => Option.none

/- The item of a value under a key. -/
def item? (value key : Value) : Option Value :=
  match value with
  | .map entries => valueUnder? key entries
  | .list items =>
      match key.wholeNumber? with
      | some i => atIndex i items
      | Option.none => Option.none
  | .text s _ =>
      match key.wholeNumber? with
      | some i => atIndex i (characters s)
      | Option.none => Option.none
  | _ => Option.none

end Bindery.Template.Value

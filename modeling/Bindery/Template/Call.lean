import Bindery.Template.Filter

/-
  This file defines what templates can call.

  Key definitions include:
    * `callRange`
    * `callFunction`
    * `callValue`
    * `callMethod`
-/

namespace Bindery.Template

/- How many numbers a range may have. -/
def maxRange : Nat :=
  100000

/- The numbers from a lower bound up to an upper one. -/
def rangeOf (lower upper step : Nat) : Except TemplateError Value :=
  if step = 0 then .error .invalidOperation
  else
    let count := (upper - lower + step - 1) / step
    if maxRange < count then .error .invalidOperation
    else
      .ok (.list ((List.range count).map
        (fun i => .int ((lower + i * step : Nat) : Int))))

/-
  The numbers below a bound, or between two bounds, by default
  each of them.
-/
def callRange (givens : List Given) : Except TemplateError Value := do
  let (bound, rest) ← required Given.count givens
  let (upper, rest) ← optional Given.count rest
  let (step, rest) ← optional Given.count rest
  noMore rest
  match upper with
  | some upper => rangeOf bound upper (step.getD 1)
  | none => rangeOf 0 bound (step.getD 1)

/- The qualified name of the segments in an argument. -/
def callQualifiedName
    (givens : List Given) : Except TemplateError Value :=
  match givens with
  | [] => .ok (.plain "")
  | segments :: rest => do
      let name ← joinSegments segments.toValue
      noMore rest
      .ok name

/- Call a function. -/
def callFunction
    (f : Function)
    (arguments : Arguments) : Except TemplateError Value :=
  match f with
  | .qualifiedName => callQualifiedName arguments.all
  | .range => callRange arguments.all

/- Call a value, which has to be a function. -/
def callValue
    (callee : Value)
    (arguments : Arguments) : Except TemplateError Value :=
  match callee with
  | .function f => callFunction f arguments
  | _ => .error .invalidOperation

/- Call what is under a name in a map. -/
def callMethod
    (subject : Value)
    (name : String)
    (arguments : Arguments) : Except TemplateError Value :=
  match subject.attribute? name with
  | some callee => callValue callee arguments
  | none => .error .unknownMethod

end Bindery.Template

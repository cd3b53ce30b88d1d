import Bindery.Template.Arguments

/-
  This file defines the tests that templates put to values.

  Key definitions include:
    * `kindTest?`
    * `applyTest`
-/

namespace Bindery.Template

/- Whether a loop can go through a value. -/
def isIterable (value : Value) : Bool :=
  match value.elements with
  | .ok _ => true
  | .error _ => false

/- Whether a value is an integer with a remainder modulo two. -/
def hasParity
    (parity : Int)
    (value : Value) : Bool :=
  match value.wholeNumber? with
  | some n => n % 2 == parity
  | none => false

/- Whether a value is undefined. -/
def isUndefined : Value → Bool
| .undefined => true
| _ => false

/- Whether a value is none. -/
def isNone : Value → Bool
| .none => true
| _ => false

/- Whether a value is a number. -/
def isNumber : Value → Bool
| .int _ => true
| .float _ => true
| _ => false

/- Whether a value is a text. -/
def isText : Value → Bool
| .text _ _ => true
| _ => false

/- Whether a value is a list. -/
def isSequence : Value → Bool
| .list _ => true
| _ => false

/- Whether a value is a map. -/
def isMapping : Value → Bool
| .map _ => true
| _ => false

/- Whether a value is a truth value. -/
def isBoolean : Value → Bool
| .bool _ => true
| _ => false

/- The tests that take no arguments. -/
def kindTest? : String → Option (Value → Bool)
| "defined" => some (fun value => !isUndefined value)
| "undefined" => some isUndefined
| "none" => some isNone
| "number" => some isNumber
| "string" => some isText
| "sequence" => some isSequence
| "mapping" => some isMapping
| "boolean" => some isBoolean
| "iterable" => some isIterable
| "odd" => some (hasParity 1)
| "even" => some (hasParity 0)
| _ => none

/- Put a test of a text against another text to a value. -/
def textTest
    (holds : List Char → List Char → Bool)
    (subject : Value)
    (givens : List Given) : Except TemplateError Bool := do
  let (other, rest) ← required Given.text givens
  noMore rest
  .ok (holds other.toList subject.display.toList)

/- Whether a test holds of a value. -/
def applyTest
    (name : String)
    (subject : Value)
    (arguments : Arguments) : Except TemplateError Bool :=
  match kindTest? name with
  | some holds => do
      noMore arguments.all
      .ok (holds subject)
  | none =>
      match name with
      | "startingwith" => textTest List.isPrefixOf subject arguments.all
      | "endingwith" => textTest List.isSuffixOf subject arguments.all
      | "eq" => do
          let (other, rest) ←
            required (fun given => .ok given.toValue) arguments.all
          noMore rest
          .ok (Value.same subject other)
      | _ => .error .unknownTest

end Bindery.Template

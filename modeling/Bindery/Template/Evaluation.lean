import Bindery.Template.Call
import Bindery.Template.Constant
import Bindery.Template.Scope
import Bindery.Template.Test

/-
  This file defines the values of expressions.

  Key definitions include:
    * `Globals`
    * `Globals.lookup`
    * `evalExpr`
-/

namespace Bindery.Template

/- The variables that all templates see. -/
abbrev Globals :=
  List (String × Value)

/-
  The value of a variable: local variables come first, then
  those of all templates, then functions.
-/
def Globals.lookup
    (globals : Globals)
    (scope : Scope)
    (name : String) : Value :=
  match scope.lookup? name with
  | some value => value
  | none =>
      match Keyed.get? name globals with
      | some value => value
      | none =>
          match name with
          | "fq_name" => .function .qualifiedName
          | "range" => .function .range
          | _ => .undefined

/- A part of a value; undefined values have no parts. -/
def partOf
    (subject : Value)
    (part : Option Value) : Except TemplateError Value :=
  match subject, part with
  | _, some value => .ok value
  | .undefined, none => .error .undefinedValue
  | _, none => .ok .undefined

/- Call what a name stands for. -/
def callName
    (globals : Globals)
    (scope : Scope)
    (name : String)
    (arguments : Arguments) : Except TemplateError Value :=
  if name = "loop" || name = "super" then .error .invalidOperation
  else
    match globals.lookup scope name with
    | .undefined => .error .unknownFunction
    | callee => callValue callee arguments

mutual

/- The value of an expression. -/
def evalExpr
    (globals : Globals)
    (scope : Scope) : Expr → Except TemplateError Value
| .const value => .ok value
| .name word => .ok (globals.lookup scope word)
| .list items => do
    let values ← evalAll globals scope items
    .ok (.list values)
| .map entries => do
    let entries ← evalEntries globals scope entries
    .ok (Value.mapOf entries)
| .attribute subject word => do
    let value ← evalExpr globals scope subject
    partOf value (value.attribute? word)
| .item subject key => do
    let value ← evalExpr globals scope subject
    let key ← evalExpr globals scope key
    partOf value (value.item? key)
| .slice subject start stop step => do
    let value ← evalExpr globals scope subject
    let start ← evalExpr globals scope start
    let stop ← evalExpr globals scope stop
    let step ← evalExpr globals scope step
    value.slice start stop step
| .unary operator operand => do
    let value ← evalExpr globals scope operand
    operator.apply value
| .binary operator left right => do
    let left ← evalExpr globals scope left
    let right ← evalExpr globals scope right
    operator.apply left right
| .and left right => do
    let value ← evalExpr globals scope left
    if value.isTrue then evalExpr globals scope right else .ok value
| .or left right => do
    let value ← evalExpr globals scope left
    if value.isTrue then .ok value else evalExpr globals scope right
| .cond test yes no => do
    let value ← evalExpr globals scope test
    if value.isTrue then evalExpr globals scope yes
    else evalExpr globals scope no
| .filter word subject args keywords => do
    let value ← evalExpr globals scope subject
    let args ← evalAll globals scope args
    let arguments := Arguments.ofValues args keywords
    applyFilter word value arguments.named arguments.positional
| .test word subject args keywords => do
    let value ← evalExpr globals scope subject
    let args ← evalAll globals scope args
    let holds ← applyTest word value (Arguments.ofValues args keywords)
    .ok (.bool holds)
| .call (.name word) args keywords => do
    let args ← evalAll globals scope args
    callName globals scope word (Arguments.ofValues args keywords)
| .call (.attribute subject word) args keywords => do
    let value ← evalExpr globals scope subject
    let args ← evalAll globals scope args
    callMethod value word (Arguments.ofValues args keywords)
| .call callee args keywords => do
    let value ← evalExpr globals scope callee
    let args ← evalAll globals scope args
    callValue value (Arguments.ofValues args keywords)

/- The values of expressions in order. -/
def evalAll
    (globals : Globals)
    (scope : Scope) : List Expr → Except TemplateError (List Value)
| [] => .ok []
| expr :: rest => do
    let value ← evalExpr globals scope expr
    let values ← evalAll globals scope rest
    .ok (value :: values)

/- The values of the keys and values of a map in order. -/
def evalEntries
    (globals : Globals)
    (scope : Scope) :
    List (Expr × Expr) →
      Except TemplateError (List (Value × Value))
| [] => .ok []
| (key, value) :: rest => do
    let key ← evalExpr globals scope key
    let value ← evalExpr globals scope value
    let entries ← evalEntries globals scope rest
    .ok ((key, value) :: entries)

end

end Bindery.Template

import Bindery.Template.Tree

/-
  This file defines the values of expressions that do not
  depend on anything, which are known before a template runs.

  Key definitions include:
    * `Value.mapOf`
    * `Expr.constant?`
    * `Expr.conjunction`
-/

namespace Bindery.Template

/-
  Put a value under a key of a map: a key that is there keeps
  its place and gets the new value.
-/
def Value.putEntry
    (key value : Value) :
    List (Value × Value) → List (Value × Value)
| [] => [(key, value)]
| (k, v) :: rest =>
    if Value.same k key then (k, value) :: rest
    else (k, v) :: putEntry key value rest

/- The map of some entries; the last entry of a key counts. -/
def Value.mapOf (entries : List (Value × Value)) : Value :=
  .map (entries.foldl
    (fun known entry => Value.putEntry entry.1 entry.2 known) [])

mutual

/- The value of an expression that depends on nothing. -/
def Expr.constant? : Expr → Option Value
| .const value => some value
| .list items => do
    let values ← Expr.constants? items
    some (.list values)
| .map entries => do
    let entries ← Expr.constantEntries? entries
    some (Value.mapOf entries)
| .unary operator operand => do
    let value ← Expr.constant? operand
    (operator.apply value).toOption
| .binary operator left right => do
    let left ← Expr.constant? left
    let right ← Expr.constant? right
    (operator.apply left right).toOption
| .or left right => do
    let left ← Expr.constant? left
    let right ← Expr.constant? right
    some (if left.isTrue then left else right)
| _ => none

/- The values of expressions that depend on nothing. -/
def Expr.constants? : List Expr → Option (List Value)
| [] => some []
| expr :: rest => do
    let value ← Expr.constant? expr
    let values ← Expr.constants? rest
    some (value :: values)

/- The entries of a map that depend on nothing. -/
def Expr.constantEntries? :
    List (Expr × Expr) → Option (List (Value × Value))
| [] => some []
| (key, value) :: rest => do
    let key ← Expr.constant? key
    let value ← Expr.constant? value
    let entries ← Expr.constantEntries? rest
    some ((key, value) :: entries)

end

/-
  The conjunction of two expressions.  If both depend on nothing
  and do not both hold, it is false and not one of the operands.
-/
def Expr.conjunction (left right : Expr) : Expr :=
  match left.constant?, right.constant? with
  | some a, some b =>
      .const (if a.isTrue && b.isTrue then b else .bool false)
  | _, _ => .and left right

end Bindery.Template

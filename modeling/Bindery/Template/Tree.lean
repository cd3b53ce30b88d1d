import Bindery.Template.Arithmetic

/-
  This file defines the trees of expressions and of templates.

  Key definitions include:
    * `Expr`
    * `Target`
    * `Stmt`
-/

namespace Bindery.Template

/-
  An expression.  Where arguments are listed, as many of the
  last ones as there are keywords are named by them.
-/
inductive Expr where
| const : Value → Expr
| name : String → Expr
| list : List Expr → Expr
| map : List (Expr × Expr) → Expr
| attribute (subject : Expr) (name : String)
| item (subject key : Expr)
| slice (subject start stop step : Expr)
| unary (operator : UnaryOperator) (operand : Expr)
| binary (operator : BinaryOperator) (left right : Expr)
| and (left right : Expr)
| or (left right : Expr)
| cond (test yes no : Expr)
| filter
    (name : String) (subject : Expr)
    (args : List Expr) (keywords : List String)
| test
    (name : String) (subject : Expr)
    (args : List Expr) (keywords : List String)
| call (callee : Expr) (args : List Expr) (keywords : List String)
deriving Repr, Inhabited

/- What a value is assigned to. -/
inductive Target where
| name : String → Target
| tuple : List Target → Target
| attribute (subject : Expr) (name : String)
deriving Repr, Inhabited

/-
  A piece of a template.  A loop goes through the elements for
  which its guard holds.
-/
inductive Stmt where
| text : String → Stmt
| emit : Expr → Stmt
| cond (test : Expr) (yes no : List Stmt)
| loop
    (target : Target) (source : Expr) (guard : Option Expr)
    (body orElse : List Stmt)
| assign (target : Target) (value : Expr)
| capture (target : Target) (body : List Stmt)
| embed (templates : Expr) (ignoreMissing : Bool)
deriving Repr, Inhabited

end Bindery.Template

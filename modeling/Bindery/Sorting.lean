/-
  This file defines how lists are sorted: by a text that every
  element has as its key, in ascending order.  Elements are
  inserted one after the other, by recursion on the list, so
  that a given list can be sorted by evaluation.

  Key definitions include:
    * `sortOn`
    * `ascending`
-/

namespace Bindery

variable {α : Type}

/- Insert an element before the first one whose key is no less. -/
def insertOn
    (key : α → String)
    (a : α) : List α → List α
| [] => [a]
| first :: rest =>
    if key a ≤ key first then a :: first :: rest
    else first :: insertOn key a rest

/- Elements in ascending order of their keys. -/
def sortOn
    (key : α → String)
    (items : List α) : List α :=
  items.foldr (insertOn key) []

/- Texts in ascending order. -/
def ascending (texts : List String) : List String :=
  sortOn id texts

end Bindery

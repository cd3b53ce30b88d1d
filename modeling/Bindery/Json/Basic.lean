/-
  This file defines JSON documents.  The members of an object
  keep their order.

  Key definitions include:
    * `Json`
    * `Json.fits`
-/

namespace Bindery

/-
  A JSON document.  Integers are those between `-2 ^ 63` and
  `2 ^ 64`; all other numbers are floating-point.
-/
inductive Json where
| null
| bool : Bool → Json
| int : Int → Json
| float : Float → Json
| text : String → Json
| array : List Json → Json
| object : List (String × Json) → Json
deriving Repr, Inhabited

namespace Json

/- Whether an integer is kept as an integer. -/
def fits (n : Int) : Bool :=
  -0x8000000000000000 ≤ n && n < 0x10000000000000000

end Json

end Bindery

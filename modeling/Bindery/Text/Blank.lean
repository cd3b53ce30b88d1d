/-
  This file defines which characters count as white space
  and how white space is removed from the ends of a text.

  Key definitions include:
    * `isBlank`
    * `trimStart`
    * `trimEnd`
    * `trim`
-/

namespace Bindery.Text

/-
  A character is blank when Unicode gives it the property
  White_Space.
-/
def isBlank (c : Char) : Bool :=
  let n := c.toNat
  (9 ≤ n && n ≤ 13) || n == 0x20 || n == 0x85 || n == 0xA0 ||
    n == 0x1680 || (0x2000 ≤ n && n ≤ 0x200A) ||
    (0x2028 ≤ n && n ≤ 0x2029) || n == 0x202F ||
    n == 0x205F || n == 0x3000

/- A text without the blanks at its start. -/
def trimStart (text : List Char) : List Char :=
  text.dropWhile isBlank

/- A text without the blanks at its end. -/
def trimEnd (text : List Char) : List Char :=
  (text.reverse.dropWhile isBlank).reverse

/- A text without the blanks at either end. -/
def trim (text : List Char) : List Char :=
  trimEnd (trimStart text)

/- Blanks within ASCII other than the vertical tab. -/
def isAsciiBlank (c : Char) : Bool :=
  c == ' ' || c == '\t' || c == '\n' || c == '\r' || c == '\x0c'

end Bindery.Text

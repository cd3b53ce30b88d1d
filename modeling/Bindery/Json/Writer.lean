import Bindery.Decimal.Layout
import Bindery.Json.Basic
import Bindery.Text.Quoted

/-
  This file defines the texts of JSON documents: the compact
  one and one with a line for every element.

  Key definitions include:
    * `Json.chars`
    * `Json.compact`
    * `Json.indentedChars`
-/

namespace Bindery.Json

------------------------------------------------------------
-- Scalars
------------------------------------------------------------

/- A character as it stands in a JSON string. -/
def escapeChar (c : Char) : List Char :=
  if c = '"' then ['\\', '"']
  else if c = '\\' then ['\\', '\\']
  else if c = '\x08' then ['\\', 'b']
  else if c = '\x0c' then ['\\', 'f']
  else if c = '\n' then ['\\', 'n']
  else if c = '\r' then ['\\', 'r']
  else if c = '\t' then ['\\', 't']
  else if c.toNat < 16 then
    ['\\', 'u', '0', '0', '0'] ++ Nat.toDigits 16 c.toNat
  else if c.toNat < 32 then
    ['\\', 'u', '0', '0'] ++ Nat.toDigits 16 c.toNat
  else [c]

/- A text as a JSON string. -/
def stringChars (s : String) : List Char :=
  '"' :: (s.toList.flatMap escapeChar ++ ['"'])

/- An integer in decimal. -/
def intChars (n : Int) : List Char :=
  (if n < 0 then ['-'] else []) ++ Nat.toDigits 10 n.natAbs

/- A floating-point number; only finite ones have a JSON form. -/
def floatChars (x : Float) : List Char :=
  if x.isFinite then Layout.data.write x
  else ['n', 'u', 'l', 'l']

/- The text of a truth value. -/
def boolChars (b : Bool) : List Char :=
  if b then ['t', 'r', 'u', 'e'] else ['f', 'a', 'l', 's', 'e']

------------------------------------------------------------
-- Compact Text
------------------------------------------------------------

mutual

/- The compact text of a document. -/
def chars : Json → List Char
| .null => ['n', 'u', 'l', 'l']
| .bool b => boolChars b
| .int n => intChars n
| .float x => floatChars x
| .text s => stringChars s
| .array items => '[' :: (itemChars items ++ [']'])
| .object members => '{' :: (memberChars members ++ ['}'])

/- The elements of an array, with commas between them. -/
def itemChars : List Json → List Char
| [] => []
| [item] => chars item
| item :: next :: rest => chars item ++ ',' :: itemChars (next :: rest)

/- The members of an object, with commas between them. -/
def memberChars : List (String × Json) → List Char
| [] => []
| [(key, value)] => stringChars key ++ ':' :: chars value
| (key, value) :: next :: rest =>
    stringChars key ++ ':' :: (chars value ++ ',' :: memberChars (next :: rest))

end

/- The compact text of a document as a string. -/
def compact (j : Json) : String :=
  String.ofList j.chars

------------------------------------------------------------
-- Indented Text
------------------------------------------------------------

/- A line break and the indentation of a nesting depth. -/
def lineBreak (width depth : Nat) : List Char :=
  '\n' :: List.replicate (width * depth) ' '

mutual

/- The text with every element and member on a line of its own. -/
def indentedChars (width depth : Nat) : Json → List Char
| .null => ['n', 'u', 'l', 'l']
| .bool b => boolChars b
| .int n => intChars n
| .float x => floatChars x
| .text s => stringChars s
| .array [] => ['[', ']']
| .array (item :: rest) =>
    '[' :: (indentedItems width (depth + 1) (item :: rest) ++
      lineBreak width depth ++ [']'])
| .object [] => ['{', '}']
| .object (member :: rest) =>
    '{' :: (indentedMembers width (depth + 1) (member :: rest) ++
      lineBreak width depth ++ ['}'])

/- The elements, each on its own line. -/
def indentedItems (width depth : Nat) : List Json → List Char
| [] => []
| item :: rest =>
    lineBreak width depth ++ indentedChars width depth item ++
      (if rest.isEmpty then [] else [',']) ++
      indentedItems width depth rest

/- The members, each on its own line. -/
def indentedMembers
    (width depth : Nat) : List (String × Json) → List Char
| [] => []
| (key, value) :: rest =>
    lineBreak width depth ++ stringChars key ++ [':', ' '] ++
      indentedChars width depth value ++
      (if rest.isEmpty then [] else [',']) ++
      indentedMembers width depth rest

end

end Bindery.Json

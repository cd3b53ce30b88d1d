import Bindery.Json.Basic
import Bindery.Json.NumberReader
import Bindery.Json.StringReader
import Bindery.Proofs.Keyed

/-
  This file says which texts are JSON documents, as a grammar
  with one rule per form.  A spelling relates a value to a text
  that starts with it and to what is left of that text.  An
  object has all the members that are written, so that a key
  may be there more than once; a document that is settled has
  every key once.

  Key definitions include:
    * `Spelling`
    * `Quoted`
    * `Number`
    * `Elements`
    * `Member`
    * `Value`
    * `IsDocument`
    * `settle`

  Key theorems include:
    * `settleItems_eq_map`
    * `settleMembers_eq_map`
-/

namespace Bindery.Json

/-
  How values are spelled: a value, a text that starts with it,
  and what is left of the text.
-/
abbrev Spelling (α : Type) :=
  α → List Char → List Char → Prop

/- What is left of a text after the blanks at its front. -/
def afterGap (s : List Char) : List Char :=
  s.dropWhile Cursor.isGap

------------------------------------------------------------
-- Strings
------------------------------------------------------------

/- The marks after a backslash and what they stand for. -/
def escapeMarks : List (Char × Char) :=
  [('"', '"'), ('\\', '\\'), ('/', '/'), ('b', '\x08'),
    ('f', '\x0c'), ('n', '\n'), ('r', '\r'), ('t', '\t')]

/-
  What stands after a backslash: a mark, or the number of a
  character in hexadecimal.  Numbers that do not fit in four
  digits are written as two halves, which only stand together.
-/
inductive Escape : Spelling Char
| mark {x y t} :
    (x, y) ∈ escapeMarks →
    Escape y (x :: t) t
| unit {x₁ x₂ x₃ x₄ n t} :
    hexFour x₁ x₂ x₃ x₄ = some n →
    isLeading n = false →
    isTrailing n = false →
    Escape (Char.ofNat n) ('u' :: x₁ :: x₂ :: x₃ :: x₄ :: t) t
| pair {x₁ x₂ x₃ x₄ y₁ y₂ y₃ y₄ n m t} :
    hexFour x₁ x₂ x₃ x₄ = some n →
    isLeading n = true →
    hexFour y₁ y₂ y₃ y₄ = some m →
    isTrailing m = true →
    Escape
      (Char.ofNat ((n - 0xD800) * 1024 + (m - 0xDC00) + 0x10000))
      ('u' :: x₁ :: x₂ :: x₃ :: x₄ ::
        '\\' :: 'u' :: y₁ :: y₂ :: y₃ :: y₄ :: t) t

/- The characters of a string up to its closing quote. -/
inductive Quoted : Spelling (List Char)
| close {t} :
    Quoted [] ('"' :: t) t
| plain {x chars s t} :
    x ≠ '"' →
    x ≠ '\\' →
    32 ≤ x.toNat →
    Quoted chars s t →
    Quoted (x :: chars) (x :: s) t
| escape {y chars s u t} :
    Escape y s u →
    Quoted chars u t →
    Quoted (y :: chars) ('\\' :: s) t

------------------------------------------------------------
-- Numbers
------------------------------------------------------------

/- All digits at the front of a text, at least one. -/
def Digits : Spelling (List Char) := fun digits s t =>
  digits ≠ [] ∧
    s.takeWhile Char.isDigit = digits ∧
    s.dropWhile Char.isDigit = t

/- The digits before a point; a zero stands there on its own only. -/
def Whole : Spelling (List Char) := fun digits s t =>
  Digits digits s t ∧ (digits.head? = some '0' → digits = ['0'])

/- The digits after a point, if there is a point. -/
inductive Fraction : Spelling (Option (List Char))
| absent {s} :
    s.head? ≠ some '.' →
    Fraction none s s
| present {digits s t} :
    Digits digits s t →
    Fraction (some digits) ('.' :: s) t

/- The sign of an exponent; whether it counts up. -/
inductive ExponentSign : Spelling Bool
| plus {t} : ExponentSign true ('+' :: t) t
| minus {t} : ExponentSign false ('-' :: t) t
| absent {t} : ExponentSign true t t

/- The sign and the digits of an exponent, if there is one. -/
inductive Exponent : Spelling (Option (Bool × List Char))
| absent {s} :
    s.head? ≠ some 'e' →
    s.head? ≠ some 'E' →
    Exponent none s s
| present {x up digits s u t} :
    x = 'e' ∨ x = 'E' →
    ExponentSign up s u →
    Digits digits u t →
    Exponent (some (up, digits)) (x :: s) t

/- A significand times a power of ten, if that is in range. -/
def scaledValue
    (positive : Bool)
    (significand : Nat)
    (exponent : Int) : Option Json :=
  match Reading.scaled significand exponent with
  | .ok x => some (signed positive x)
  | .error .outOfRange => none

/-
  A significand times a power of ten, to which a written
  exponent is added.  An exponent that is out of all bounds
  makes the number a zero, or too great.
-/
def exponentValue
    (positive : Bool)
    (significand : Nat)
    (start : Int) : Option (Bool × List Char) → Option Json
| none => scaledValue positive significand start
| some (up, digits) =>
    let (exponent, _, overflow) := absorbExponent 0 0 digits
    if overflow then
      if significand ≠ 0 ∧ up then none
      else some (signed positive 0.0)
    else
      scaledValue positive significand
        (if up then start + exponent else start - exponent)

/-
  The value of a number whose digits before the point are
  gathered, with so many of them left out.
-/
def numberValue
    (positive : Bool)
    (significand dropped : Nat) :
    Option (List Char) → Option (Bool × List Char) → Option Json
| none, none =>
    if dropped = 0 then some (integerValue positive significand)
    else scaledValue positive significand dropped
| none, some exponent =>
    exponentValue positive significand dropped (some exponent)
| some digits, exponent =>
    let (significand, left) := absorb significand digits
    exponentValue positive significand
      ((dropped : Int) - ((digits.length - left.length : Nat) : Int))
      exponent

/-
  What follows the digits before the point, given the number
  that they make and how many of them were left out.
-/
def AfterDigits
    (positive : Bool)
    (significand dropped : Nat) : Spelling Json := fun j s t =>
  ∃ fraction u, Fraction fraction s u ∧
    ∃ exponent, Exponent exponent u t ∧
      numberValue positive significand dropped fraction exponent
        = some j

/- A number after its sign. -/
def Unsigned (positive : Bool) : Spelling Json := fun j s t =>
  ∃ whole u, Whole whole s u ∧
    AfterDigits positive
      (absorb 0 whole).1 (absorb 0 whole).2.length j u t

/- A number, which is an integer if it is written and fits as one. -/
inductive Number : Spelling Json
| positive {j s t} :
    Unsigned true j s t →
    Number j s t
| negative {j s t} :
    Unsigned false j s t →
    Number j ('-' :: s) t

------------------------------------------------------------
-- Lists and Objects
------------------------------------------------------------

section Lists

variable {α : Type}

/- What follows an element: the end, or a comma and more elements. -/
inductive MoreElements
    (close : Char)
    (element : Spelling α) : Spelling (List α)
| close {s t} :
    afterGap s = close :: t →
    MoreElements close element [] s t
| comma {a rest s u v t} :
    afterGap s = ',' :: u →
    element a (afterGap u) v →
    MoreElements close element rest v t →
    MoreElements close element (a :: rest) s t

/- Elements with commas between them, and the end after them. -/
inductive Elements
    (close : Char)
    (element : Spelling α) : Spelling (List α)
| empty {s t} :
    afterGap s = close :: t →
    Elements close element [] s t
| cons {a rest s u t} :
    element a (afterGap s) u →
    MoreElements close element rest u t →
    Elements close element (a :: rest) s t

/- A colon and a value. -/
inductive AfterColon (value : Spelling α) : Spelling α
| mk {a s u t} :
    afterGap s = ':' :: u →
    value a (afterGap u) t →
    AfterColon value a s t

/- A key and, after a colon, a value. -/
inductive Member (value : Spelling α) : Spelling (String × α)
| mk {chars a s u t} :
    Quoted chars s u →
    AfterColon value a u t →
    Member value (String.ofList chars, a) ('"' :: s) t

end Lists

------------------------------------------------------------
-- Documents
------------------------------------------------------------

/- A value that is no list and no object. -/
inductive Scalar : Spelling Json
| null {t} : Scalar .null ('n' :: 'u' :: 'l' :: 'l' :: t) t
| yes {t} : Scalar (.bool true) ('t' :: 'r' :: 'u' :: 'e' :: t) t
| no {t} :
    Scalar (.bool false) ('f' :: 'a' :: 'l' :: 's' :: 'e' :: t) t
| number {j s t} :
    Number j s t →
    Scalar j s t
| text {chars s t} :
    Quoted chars s t →
    Scalar (.text (String.ofList chars)) ('"' :: s) t

/- A scalar, or a list or an object of other values. -/
inductive Nested (inner : Spelling Json) : Spelling Json
| scalar {j s t} :
    Scalar j s t →
    Nested inner j s t
| array {items s t} :
    Elements ']' inner items s t →
    Nested inner (.array items) ('[' :: s) t
| object {members s t} :
    Elements '}' (Member inner) members s t →
    Nested inner (.object members) ('{' :: s) t

/-
  A value.  The first argument says how deep lists and objects
  may be nested in it.
-/
def Value : Nat → Spelling Json
| 0 => Scalar
| depth + 1 => Nested (Value depth)

/- A text that holds one value and nothing else but blanks. -/
def IsDocument
    (depth : Nat)
    (text : String)
    (doc : Json) : Prop :=
  ∃ rest, Value depth doc (afterGap text.toList) rest ∧
    afterGap rest = []

------------------------------------------------------------
-- Settled Documents
------------------------------------------------------------

mutual

/-
  Every key once: a repeated key keeps its first place and has
  its last value.
-/
def settle : Json → Json
| .array items => .array (settleItems items)
| .object members => .object (Keyed.putAll (settleMembers members) [])
| j => j

/- The elements of an array, each of them settled. -/
def settleItems : List Json → List Json
| [] => []
| item :: rest => settle item :: settleItems rest

/- The members of an object, the value of each settled. -/
def settleMembers : List (String × Json) → List (String × Json)
| [] => []
| (key, value) :: rest => (key, settle value) :: settleMembers rest

end

theorem settleItems_eq_map (items : List Json) :
    settleItems items = items.map settle := by
  induction items with
  | nil => rfl
  | cons item rest ih => rw [settleItems, ih, List.map_cons]

theorem settleMembers_eq_map (members : List (String × Json)) :
    settleMembers members =
      members.map (fun member => (member.1, settle member.2)) := by
  induction members with
  | nil => rfl
  | cons member rest ih =>
      rw [settleMembers, ih, List.map_cons]

theorem settle_array (items : List Json) :
    settle (.array items) = .array (items.map settle) := by
  rw [← settleItems_eq_map]
  simp only [settle]

theorem settle_object (members : List (String × Json)) :
    settle (.object members) =
      .object (Keyed.putAll (settleMembers members) []) := by
  simp only [settle]

end Bindery.Json

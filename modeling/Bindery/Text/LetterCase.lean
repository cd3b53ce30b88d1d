import Bindery.Text.Blank
import Bindery.Text.LetterCase.Table

/-
  This file defines the change of letter case of characters
  and of whole texts.  A capital or small form may take more
  than one character.

  Key definitions include:
    * `upperChar`
    * `lowerChar`
    * `upper`
    * `lower`
    * `title`
-/

namespace Bindery.Text

namespace LetterCase

/- Whether a code point lies in one of the ranges. -/
def inRanges
    (ranges : Array (Nat × Nat))
    (n : Nat) : Bool :=
  ranges.any (fun (lo, hi) => lo ≤ n && n ≤ hi)

/- Whether a shift moves a code point. -/
def Shift.applies
    (s : Shift)
    (n : Nat) : Bool :=
  s.first ≤ n && n ≤ s.last && (n - s.first) % s.step == 0

/- Change a code point beyond ASCII by the given tables. -/
def changeByTables
    (shifts : Array Shift)
    (expansions : Array (Nat × List Nat))
    (c : Char) : List Char :=
  let n := c.toNat
  match expansions.find? (fun row => row.1 == n) with
  | some row => row.2.map Char.ofNat
  | none =>
      match shifts.find? (fun s => s.applies n) with
      | some s => [Char.ofNat (n + s.offset).toNat]
      | none => [c]

end LetterCase

open LetterCase

/- The capital form of a character. -/
def upperChar (c : Char) : List Char :=
  if c.toNat < 128 then [c.toUpper]
  else changeByTables upperShifts upperExpansions c

/- The small form of a character. -/
def lowerChar (c : Char) : List Char :=
  if c.toNat < 128 then [c.toLower]
  else changeByTables lowerShifts lowerExpansions c

/- The capital form of a text. -/
def upper (text : List Char) : List Char :=
  text.flatMap upperChar

/-
  Whether the first character that is not case-ignorable is
  a cased letter.
-/
def startsCased (text : List Char) : Bool :=
  match text.dropWhile (fun c => inRanges caseIgnorableRanges c.toNat) with
  | [] => false
  | c :: _ => inRanges casedRanges c.toNat

/-
  The small form of the rest of a text; `before` is what
  stands before the rest, nearest character first.  A capital
  sigma that ends a word becomes the final small sigma.
-/
def lowerFrom
    (before : List Char) : List Char → List Char
| [] => []
| c :: rest =>
    let small :=
      if c.toNat == 0x3A3 then
        if startsCased before && !startsCased rest then
          [Char.ofNat 0x3C2]
        else
          [Char.ofNat 0x3C3]
      else
        lowerChar c
    small ++ lowerFrom (c :: before) rest

/- The small form of a text. -/
def lower (text : List Char) : List Char :=
  lowerFrom [] text

/- ASCII characters that are neither letters, digits, blanks nor controls. -/
def isAsciiPunctuation (c : Char) : Bool :=
  33 ≤ c.toNat && c.toNat ≤ 126 && !c.isAlphanum

/-
  Write the first character of each word in capital form and
  the others in small form; blanks and ASCII punctuation end a
  word.  `fresh` says that the next letter starts a word.
-/
def titleFrom
    (fresh : Bool) : List Char → List Char
| [] => []
| c :: rest =>
    if isAsciiPunctuation c || isBlank c then
      c :: titleFrom true rest
    else if fresh then
      upperChar c ++ titleFrom false rest
    else
      lowerChar c ++ titleFrom false rest

/- Title case of a text. -/
def title (text : List Char) : List Char :=
  titleFrom true text

end Bindery.Text

/-
  This file defines texts made of parts with separators
  between them: how they are cut, joined and searched.

  Key definitions include:
    * `splitAt`
    * `splitLast`
    * `replaceAll`
    * `occursIn`
-/

namespace Bindery.Text

/- The parts of a text between the occurrences of one character. -/
def splitAt (separator : Char) : List Char → List (List Char)
| [] => [[]]
| c :: rest =>
    if c = separator then
      [] :: splitAt separator rest
    else
      match splitAt separator rest with
      | [] => [[c]]
      | part :: parts => (c :: part) :: parts

/- Cut a text at the last place where the separator stands. -/
def splitLast
    (separator : List Char) :
    List Char → Option (List Char × List Char)
| [] => none
| c :: rest =>
    match splitLast separator rest with
    | some (before, after) => some (c :: before, after)
    | none =>
        if separator.isPrefixOf (c :: rest) then
          some ([], (c :: rest).drop separator.length)
        else
          none

/-
  Replace the occurrences of a pattern from left to right.
  `skip` counts the characters of a match that are still to be
  dropped.  An empty pattern occurs between all characters and
  at both ends.
-/
def replaceFrom
    (pattern replacement : List Char) :
    Nat → List Char → List Char
| _, [] => if pattern = [] then replacement else []
| 0, c :: rest =>
    if pattern = [] then
      replacement ++ c :: replaceFrom pattern replacement 0 rest
    else if pattern.isPrefixOf (c :: rest) then
      replacement ++
        replaceFrom pattern replacement (pattern.length - 1) rest
    else
      c :: replaceFrom pattern replacement 0 rest
| skip + 1, _ :: rest =>
    replaceFrom pattern replacement skip rest

/- Replace every occurrence of a pattern. -/
def replaceAll
    (pattern replacement text : List Char) : List Char :=
  replaceFrom pattern replacement 0 text

/- Whether a pattern stands somewhere in a text. -/
def occursIn
    (pattern : List Char) : List Char → Bool
| [] => pattern.isEmpty
| c :: rest => pattern.isPrefixOf (c :: rest) || occursIn pattern rest

end Bindery.Text

import Bindery.Text.LetterCase
import Bindery.Text.Quoted.Table

/-
  This file defines texts in double quotes, with escapes for
  what could not be read on a page.

  Key definitions include:
    * `quoteChar`
    * `quote`
-/

namespace Bindery.Text

namespace Quoted

/- Lower-case hexadecimal digits of a number. -/
def hexDigits (n : Nat) : List Char :=
  Nat.toDigits 16 n

/- Whether a character is never shown as it is. -/
def isHidden (c : Char) : Bool :=
  if c.toNat < 127 then c.toNat < 32
  else LetterCase.inRanges hiddenRanges c.toNat

/- A character as it stands between the quotes. -/
def quoteChar (c : Char) : List Char :=
  if c == '"' then ['\\', '"']
  else if c == '\\' then ['\\', '\\']
  else if c == '\n' then ['\\', 'n']
  else if c == '\r' then ['\\', 'r']
  else if c == '\t' then ['\\', 't']
  else if c.toNat == 0 then ['\\', '0']
  else if isHidden c then
    ['\\', 'u', '\x7b'] ++ hexDigits c.toNat ++ ['\x7d']
  else [c]

end Quoted

/- A text in double quotes. -/
def quote (text : String) : String :=
  String.ofList ('"' :: (text.toList.flatMap Quoted.quoteChar ++ ['"']))

end Bindery.Text

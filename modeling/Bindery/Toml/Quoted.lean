import Bindery.Toml.Scalar

/-
  This file defines how texts in quotes are read.  Within
  double quotes a backslash begins an escape; within single
  quotes it does not.  Three quotes allow several lines.

  Key definitions include:
    * `basicText`
    * `literalText`
    * `basicLines`
    * `literalLines`
    * `quoted?`
-/

namespace Bindery.Toml

/- A text and what follows it. -/
abbrev QuotedText :=
  Option (List Char × List Char)

/- A text with one more character in front. -/
def QuotedText.cons
    (c : Char) : QuotedText → QuotedText
| some (inner, rest) => some (c :: inner, rest)
| none => none

/- Characters that may stand nowhere but in line breaks. -/
def isControl (c : Char) : Bool :=
  (c.toNat < 32 && c != '\t') || c.toNat == 127

/- The character that a letter after a backslash stands for. -/
def escaped? (c : Char) : Option Char :=
  if c = '"' || c = '\\' then some c
  else if c = 'b' then some '\x08'
  else if c = 'e' then some '\x1b'
  else if c = 'f' then some '\x0c'
  else if c = 'n' then some '\n'
  else if c = 'r' then some '\r'
  else if c = 't' then some '\t'
  else none

/- The character with a code point in hexadecimal digits. -/
def codePoint? (digits : List Char) : Option Char := do
  let n ← number? 16 0 digits
  if n < 0xD800 ∨ (0xE000 ≤ n ∧ n < 0x110000) then
    some (Char.ofNat n)
  else
    none

/- Continue a text after a character that may be missing. -/
def QuotedText.consIf
    (c : Option Char)
    (text : QuotedText) : QuotedText :=
  match c with
  | some c => text.cons c
  | none => none

------------------------------------------------------------
-- One Line
------------------------------------------------------------

/- Read a text up to its closing double quote. -/
def basicText : List Char → QuotedText
| [] => none
| '"' :: rest => some ([], rest)
| '\\' :: 'u' :: a :: b :: c :: d :: rest =>
    QuotedText.consIf (codePoint? [a, b, c, d]) (basicText rest)
| '\\' :: 'U' :: a :: b :: c :: d :: e :: f :: g :: h :: rest =>
    QuotedText.consIf (codePoint? [a, b, c, d, e, f, g, h])
      (basicText rest)
| '\\' :: 'x' :: a :: b :: rest =>
    QuotedText.consIf (codePoint? [a, b]) (basicText rest)
| '\\' :: c :: rest =>
    QuotedText.consIf (escaped? c) (basicText rest)
| c :: rest =>
    if isControl c || c = '\\' then none
    else QuotedText.cons c (basicText rest)

/- Read a text up to its closing single quote. -/
def literalText : List Char → QuotedText
| [] => none
| '\'' :: rest => some ([], rest)
| c :: rest =>
    if isControl c then none
    else QuotedText.cons c (literalText rest)

------------------------------------------------------------
-- Several Lines
------------------------------------------------------------

/- Whether a line ends after blanks. -/
def lineEnds (text : List Char) : Bool :=
  match text.dropWhile (fun c => c = ' ' || c = '\t') with
  | '\n' :: _ => true
  | '\r' :: '\n' :: _ => true
  | _ => false

/- Blanks and line breaks. -/
def isGap (c : Char) : Bool :=
  c = ' ' || c = '\t' || c = '\n' || c = '\r'

/-
  Read a text up to three double quotes; up to two more may
  stand before them.  After a backslash at the end of a line
  all blanks and line breaks are skipped.
-/
def basicLines (skipping : Bool) : List Char → QuotedText
| [] => none
| '"' :: '"' :: '"' :: '"' :: '"' :: rest => some (['"', '"'], rest)
| '"' :: '"' :: '"' :: '"' :: rest => some (['"'], rest)
| '"' :: '"' :: '"' :: rest => some ([], rest)
| '\\' :: 'u' :: a :: b :: c :: d :: rest =>
    QuotedText.consIf (codePoint? [a, b, c, d]) (basicLines false rest)
| '\\' :: 'U' :: a :: b :: c :: d :: e :: f :: g :: h :: rest =>
    QuotedText.consIf (codePoint? [a, b, c, d, e, f, g, h])
      (basicLines false rest)
| '\\' :: 'x' :: a :: b :: rest =>
    QuotedText.consIf (codePoint? [a, b]) (basicLines false rest)
| '\\' :: c :: rest =>
    if lineEnds (c :: rest) then basicLines true rest
    else QuotedText.consIf (escaped? c) (basicLines false rest)
| '\r' :: '\n' :: rest =>
    if skipping then basicLines true rest
    else ((basicLines false rest).cons '\n').cons '\r'
| c :: rest =>
    if skipping && isGap c then basicLines true rest
    else if (isControl c && c != '\n') || c = '\\' then none
    else QuotedText.cons c (basicLines false rest)

/- Read a text up to three single quotes. -/
def literalLines : List Char → QuotedText
| [] => none
| '\'' :: '\'' :: '\'' :: '\'' :: '\'' :: rest =>
    some (['\'', '\''], rest)
| '\'' :: '\'' :: '\'' :: '\'' :: rest => some (['\''], rest)
| '\'' :: '\'' :: '\'' :: rest => some ([], rest)
| '\r' :: '\n' :: rest =>
    ((literalLines rest).cons '\n').cons '\r'
| c :: rest =>
    if isControl c && c != '\n' then none
    else QuotedText.cons c (literalLines rest)

/- A text without a line break at its start. -/
def dropLineBreak : List Char → List Char
| '\n' :: rest => rest
| '\r' :: '\n' :: rest => rest
| lines => lines

/- Read a text in quotes of any kind. -/
def quoted? : List Char → QuotedText
| '"' :: '"' :: '"' :: rest => basicLines false (dropLineBreak rest)
| '\'' :: '\'' :: '\'' :: rest => literalLines (dropLineBreak rest)
| '"' :: rest => basicText rest
| '\'' :: rest => literalText rest
| _ => none

end Bindery.Toml

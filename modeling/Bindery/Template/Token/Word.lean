import Bindery.Decimal.Reading
import Bindery.Template.Token

/-
  This file defines how the tokens within a tag are read:
  names, numerals, texts in quotes, and symbols.

  Key definitions include:
    * `symbol?`
    * `readNumeral`
    * `readQuoted`
    * `readWord`
-/

namespace Bindery.Template

/- Reading a token yields the token and what follows it. -/
abbrev WordReader :=
  List Char → Except TemplateError (Token × List Char)

------------------------------------------------------------
-- Symbols
------------------------------------------------------------

/- The symbol of two characters that a text starts with. -/
def doubleSymbol? : List Char → Option Symbol
| '/' :: '/' :: _ => some .doubleSlash
| '*' :: '*' :: _ => some .doubleStar
| '=' :: '=' :: _ => some .equal
| '!' :: '=' :: _ => some .different
| '>' :: '=' :: _ => some .greaterOrEqual
| '<' :: '=' :: _ => some .lessOrEqual
| _ => none

/- The symbol of one character. -/
def singleSymbol? (c : Char) : Option Symbol :=
  if c = '+' then some .plus
  else if c = '-' then some .minus
  else if c = '*' then some .star
  else if c = '/' then some .slash
  else if c = '%' then some .percent
  else if c = '.' then some .dot
  else if c = ',' then some .comma
  else if c = ':' then some .colon
  else if c = '~' then some .tilde
  else if c = '|' then some .pipe
  else if c = '=' then some .assign
  else if c = '<' then some .less
  else if c = '>' then some .greater
  else if c = '(' then some .openParen
  else if c = ')' then some .closeParen
  else if c = '[' then some .openBracket
  else if c = ']' then some .closeBracket
  else if c = '{' then some .openBrace
  else if c = '}' then some .closeBrace
  else none

/- The symbol that a text starts with, and what follows it. -/
def symbol? (text : List Char) : Option (Symbol × List Char) :=
  match doubleSymbol? text with
  | some s => some (s, text.drop 2)
  | none =>
      match text with
      | [] => none
      | c :: rest => (singleSymbol? c).map (fun s => (s, rest))

------------------------------------------------------------
-- Numerals
------------------------------------------------------------

/- The value of a digit in bases up to sixteen. -/
def digitValue? (c : Char) : Option Nat :=
  if c.isDigit then some (c.toNat - '0'.toNat)
  else if 'a' ≤ c && c ≤ 'f' then some (c.toNat - 'a'.toNat + 10)
  else if 'A' ≤ c && c ≤ 'F' then some (c.toNat - 'A'.toNat + 10)
  else none

/- The number that digits denote in a base. -/
def digitsValue?
    (base : Nat)
    (value : Nat) : List Char → Option Nat
| [] => some value
| c :: rest =>
    match digitValue? c with
    | some d =>
        if d < base then digitsValue? base (value * base + d) rest
        else none
    | none => none

/- The part of a decimal numeral that was reached. -/
inductive NumeralPart where
| whole
| fraction
| exponent
| exponentDigits
deriving DecidableEq, Repr

/- The part that one more character of a numeral belongs to. -/
def NumeralPart.next? (part : NumeralPart) (c : Char) : Option NumeralPart :=
  if c = '_' then some part
  else if c.isDigit then
    some (if part = .exponent then .exponentDigits else part)
  else if c = '.' then
    if part = .whole then some .fraction else none
  else if c = 'e' || c = 'E' then
    if part = .whole || part = .fraction then some .exponent else none
  else if c = '+' || c = '-' then
    if part = .exponent then some .exponentDigits else none
  else none

/- The characters of a decimal numeral with their parts. -/
def takeNumeral
    (part : NumeralPart) :
    List Char → List (NumeralPart × Char) × List Char
| [] => ([], [])
| c :: rest =>
    match part.next? c with
    | some next =>
        let taken := takeNumeral next rest
        ((next, c) :: taken.1, taken.2)
    | none => ([], c :: rest)

/- The digits of one part of a numeral. -/
def digitsOf
    (part : NumeralPart)
    (numeral : List (NumeralPart × Char)) : List Char :=
  (numeral.filter (fun x => x.1 = part && x.2.isDigit)).map Prod.snd

/- Largest integer that can be written, `2 ^ 128 - 1`. -/
def maxInt : Nat :=
  0xffffffffffffffffffffffffffffffff

/- An integer token, unless the integer is too large. -/
def intToken (value : Option Nat) : Except TemplateError Token :=
  match value with
  | some n => if n ≤ maxInt then .ok (.int n) else .error .grammar
  | none => .error .grammar

/-
  The value of a decimal numeral with a fraction or exponent.
  The exponent needs at least one digit.
-/
def floatToken
    (numeral : List (NumeralPart × Char)) : Except TemplateError Token :=
  let whole := digitsOf .whole numeral
  let fraction := digitsOf .fraction numeral
  let marked := numeral.any (fun x => x.2 = 'e' || x.2 = 'E')
  let exponent := digitsOf .exponentDigits numeral
  if marked && exponent.isEmpty then .error .grammar
  else
    match digitsValue? 10 0 (whole ++ fraction),
        digitsValue? 10 0 exponent with
    | some digits, some size =>
        let e : Int := if numeral.any (·.2 = '-') then -size else size
        .ok (.float (Reading.nearest digits (e - fraction.length)))
    | _, _ => .error .grammar

/- Read a decimal numeral. -/
def readDecimal : WordReader := fun text => do
  let (numeral, rest) := takeNumeral .whole text
  if numeral.getLast?.any (·.2 = '_') then .error .grammar
  else if numeral.all (·.1 = .whole) then
    let token ← intToken (digitsValue? 10 0 (digitsOf .whole numeral))
    .ok (token, rest)
  else
    let token ← floatToken numeral
    .ok (token, rest)

/- Read an integer in another base after the mark of the base. -/
def readInBase (base : Nat) : WordReader := fun text => do
  let belongs : Char → Bool := fun c =>
    c = '_' || c.isDigit || (base == 16 && (digitValue? c).isSome)
  let numeral := text.takeWhile belongs
  if numeral.getLast? = some '_' then .error .grammar
  else
    let digits := numeral.filter (· ≠ '_')
    if digits.isEmpty then .error .grammar
    else
      let token ← intToken (digitsValue? base 0 digits)
      .ok (token, text.dropWhile belongs)

/- The base that a numeral starts with a mark of. -/
def markedBase? : List Char → Option Nat
| '0' :: 'b' :: _ => some 2
| '0' :: 'B' :: _ => some 2
| '0' :: 'o' :: _ => some 8
| '0' :: 'O' :: _ => some 8
| '0' :: 'x' :: _ => some 16
| '0' :: 'X' :: _ => some 16
| _ => none

/- Read a numeral. -/
def readNumeral : WordReader := fun text =>
  match markedBase? text with
  | some base => readInBase base (text.drop 2)
  | none => readDecimal text

------------------------------------------------------------
-- Texts in Quotes
------------------------------------------------------------

/-
  What stands before the closing quote of a text, escapes
  included, and what follows the quote.
-/
def untilQuote
    (quote : Char) : List Char → Option (List Char × List Char)
| [] => none
| '\\' :: c :: rest =>
    (untilQuote quote rest).map (fun (s, r) => ('\\' :: c :: s, r))
| c :: rest =>
    if c = quote then some ([], rest)
    else if c = '\\' then none
    else (untilQuote quote rest).map (fun (s, r) => (c :: s, r))

/- The character that a letter after a backslash stands for. -/
def escaped? (c : Char) : Option Char :=
  if c = '"' || c = '\\' || c = '/' || c = '\'' then some c
  else if c = 'b' then some '\x08'
  else if c = 'f' then some '\x0c'
  else if c = 'n' then some '\n'
  else if c = 'r' then some '\r'
  else if c = 't' then some '\t'
  else none

/- The character of two surrogate units. -/
def surrogatePair? (high low : Nat) : Option Char :=
  if 0xD800 ≤ high && high < 0xDC00 && 0xDC00 ≤ low && low < 0xE000 then
    some (Char.ofNat (0x10000 + (high - 0xD800) * 0x400 + (low - 0xDC00)))
  else none

/-
  A text with its escapes resolved.  `pending` is a surrogate
  unit that waits for the second unit of its character.
-/
def unescape
    (pending : Option Nat) :
    List Char → Except TemplateError (List Char)
| [] => if pending.isSome then .error .badEscape else .ok []
| '\\' :: 'u' :: a :: b :: c :: d :: rest =>
    match digitsValue? 16 0 [a, b, c, d] with
    | none => .error .badEscape
    | some unit =>
        match pending, 0xD800 ≤ unit && unit < 0xE000 with
        | none, true => unescape (some unit) rest
        | none, false => do
            let s ← unescape none rest
            .ok (Char.ofNat unit :: s)
        | some _, false => .error .badEscape
        | some high, true =>
            match surrogatePair? high unit with
            | some x => do
                let s ← unescape none rest
                .ok (x :: s)
            | none => .error .badEscape
| '\\' :: c :: rest =>
    match pending, escaped? c with
    | none, some x => do
        let s ← unescape none rest
        .ok (x :: s)
    | _, _ => .error .badEscape
| c :: rest =>
    if pending.isSome || c = '\\' then .error .badEscape
    else do
      let s ← unescape none rest
      .ok (c :: s)

/- Read a text after its opening quote. -/
def readQuoted (quote : Char) : WordReader := fun text =>
  match untilQuote quote text with
  | none => .error .grammar
  | some (inner, rest) => do
      let s ← unescape none inner
      .ok (.string (String.ofList s), rest)

------------------------------------------------------------
-- Words
------------------------------------------------------------

/- Whether a character may start a name. -/
def startsName (c : Char) : Bool :=
  c.isAlpha || c = '_'

/- Whether a character may stand within a name. -/
def belongsToName (c : Char) : Bool :=
  c.isAlphanum || c = '_'

/- Read the token that a text starts with. -/
def readWord : WordReader := fun text =>
  match symbol? text with
  | some (s, rest) => .ok (.symbol s, rest)
  | none =>
      match text with
      | [] => .error .grammar
      | c :: rest =>
          if c = '\'' || c = '"' then readQuoted c rest
          else if c.isDigit then readNumeral text
          else if startsName c then
            .ok
              (.name (String.ofList (text.takeWhile belongsToName)),
                text.dropWhile belongsToName)
          else .error .grammar

end Bindery.Template

import Bindery.Decimal.Reading
import Bindery.Text.Separated
import Bindery.Toml.Basic

/-
  This file defines how truth values, numbers and points in
  time are read.

  Key definitions include:
    * `int?`
    * `float?`
    * `isMoment`
    * `scalar?`
-/

namespace Bindery.Toml

------------------------------------------------------------
-- Integers
------------------------------------------------------------

/- The value of a digit in a base up to sixteen. -/
def digit?
    (base : Nat)
    (c : Char) : Option Nat :=
  let value :=
    if c.isDigit then c.toNat - '0'.toNat
    else if 'a' ≤ c && c ≤ 'f' then c.toNat - 'a'.toNat + 10
    else if 'A' ≤ c && c ≤ 'F' then c.toNat - 'A'.toNat + 10
    else base
  if value < base then some value else none

/- The number that digits denote in a base. -/
def number?
    (base : Nat)
    (value : Nat) : List Char → Option Nat
| [] => some value
| c :: rest => do
    let d ← digit? base c
    number? base (value * base + d) rest

/- Digits without the underscores, which stand between digits only. -/
def digits?
    (base : Nat)
    (text : List Char) : Option (List Char) :=
  let groups := Text.splitAt '_' text
  if groups.all (fun g => !g.isEmpty && g.all (fun c => (digit? base c).isSome))
  then some groups.flatten
  else none

/- Decimal digits without a zero in front of others. -/
def wholeDigits? (text : List Char) : Option (List Char) :=
  match digits? 10 text with
  | some ['0'] => some ['0']
  | some ('0' :: _) => none
  | found => found

/- Whether a numeral is negative, and the numeral without its sign. -/
def splitSign : List Char → Bool × List Char
| '-' :: rest => (true, rest)
| '+' :: rest => (false, rest)
| digits => (false, digits)

/- A value with a sign. -/
def signed (negative : Bool) (n : Nat) : Int :=
  if negative then -(n : Int) else n

/- An integer between `-2 ^ 127` and `2 ^ 128`. -/
def checkedInt? (n : Int) : Option Toml :=
  if -0x80000000000000000000000000000000 ≤ n ∧
      n < 0x100000000000000000000000000000000 then
    some (.int n)
  else
    none

/- Read an integer in a base other than ten. -/
def basedInt?
    (base : Nat)
    (text : List Char) : Option Toml := do
  let digits ← digits? base text
  let n ← number? base 0 digits
  checkedInt? n

/- Read an integer. -/
def int? : List Char → Option Toml
| '0' :: 'x' :: rest => basedInt? 16 rest
| '0' :: 'o' :: rest => basedInt? 8 rest
| '0' :: 'b' :: rest => basedInt? 2 rest
| numeral => do
    let (negative, numeral) := splitSign numeral
    let digits ← wholeDigits? numeral
    let n ← number? 10 0 digits
    checkedInt? (signed negative n)

------------------------------------------------------------
-- Floating-point Numbers
------------------------------------------------------------

/- The exponent of a numeral. -/
def exponent? (text : List Char) : Option Int := do
  let (negative, text) := splitSign text
  let digits ← digits? 10 text
  let n ← number? 10 0 digits
  some (signed negative n)

/- The finite number of digits, a fraction and an exponent. -/
def finite?
    (negative : Bool)
    (whole fraction : List Char)
    (exponent : Int) : Option Toml := do
  let n ← number? 10 0 (whole ++ fraction)
  let x := Reading.nearest n (exponent - fraction.length)
  if x.isInf then none
  else some (.float (if negative then -x else x))

/- Read a numeral without an exponent before its exponent. -/
def mantissa?
    (negative : Bool)
    (text : List Char)
    (exponent : Int) : Option Toml :=
  match Text.splitAt '.' text with
  | [whole] => do
      let whole ← wholeDigits? whole
      finite? negative whole [] exponent
  | [whole, fraction] => do
      let whole ← wholeDigits? whole
      let fraction ← digits? 10 fraction
      finite? negative whole fraction exponent
  | _ => none

/- Read a floating-point number. -/
def float? (text : List Char) : Option Toml :=
  let (negative, text) := splitSign text
  if text = ['i', 'n', 'f'] then
    some (.float (if negative then -1.0 / 0.0 else 1.0 / 0.0))
  else if text = ['n', 'a', 'n'] then some (.float (0.0 / 0.0))
  else
    match Text.splitAt 'e' (text.map (fun c => if c = 'E' then 'e' else c)) with
    | [mantissa] =>
        if mantissa.contains '.' then mantissa? negative mantissa 0
        else none
    | [mantissa, exponent] => do
        let exponent ← exponent? exponent
        mantissa? negative mantissa exponent
    | _ => none

------------------------------------------------------------
-- Points in Time
------------------------------------------------------------

/- A number of exactly some digits within bounds. -/
def field?
    (width lower upper : Nat)
    (text : List Char) : Option Nat :=
  if text.length = width && text.all Char.isDigit then
    match number? 10 0 text with
    | some n => if lower ≤ n ∧ n ≤ upper then some n else none
    | none => none
  else
    none

/- The number of days in a month. -/
def daysIn (year month : Nat) : Nat :=
  if month = 2 then
    if year % 4 = 0 && (year % 100 ≠ 0 || year % 400 = 0) then 29
    else 28
  else if [4, 6, 9, 11].contains month then 30
  else 31

/- Whether a text is a date. -/
def isDate (text : List Char) : Bool :=
  match Text.splitAt '-' text with
  | [year, month, day] =>
      match field? 4 0 9999 year, field? 2 1 12 month with
      | some y, some m => (field? 2 1 (daysIn y m) day).isSome
      | _, _ => false
  | _ => false

/- Whether a text is the seconds of a time. -/
def isSeconds (text : List Char) : Bool :=
  match Text.splitAt '.' text with
  | [seconds] => (field? 2 0 60 seconds).isSome
  | [seconds, fraction] =>
      (field? 2 0 60 seconds).isSome &&
        !fraction.isEmpty && fraction.all Char.isDigit
  | _ => false

/- Whether a text is a time of day. -/
def isTime (text : List Char) : Bool :=
  match Text.splitAt ':' text with
  | [hours, minutes] =>
      (field? 2 0 23 hours).isSome && (field? 2 0 59 minutes).isSome
  | [hours, minutes, seconds] =>
      (field? 2 0 23 hours).isSome && (field? 2 0 59 minutes).isSome &&
        isSeconds seconds
  | _ => false

/- Whether a text is the difference to universal time. -/
def isOffset (text : List Char) : Bool :=
  match text with
  | [c] => c = 'Z' || c = 'z'
  | c :: rest =>
      (c = '+' || c = '-') &&
        match Text.splitAt ':' rest with
        | [hours, minutes] =>
            (field? 2 0 23 hours).isSome && (field? 2 0 59 minutes).isSome
        | _ => false
  | [] => false

/- Whether a character begins a difference to universal time. -/
def beginsOffset (c : Char) : Bool :=
  c = 'Z' || c = 'z' || c = '+' || c = '-'

/- Whether a text is a time of day, perhaps with an offset. -/
def isFullTime (text : List Char) : Bool :=
  let time := text.takeWhile (fun c => !beginsOffset c)
  let offset := text.drop time.length
  isTime time && (offset.isEmpty || isOffset offset)

/- Whether a text is a date, a time, or both. -/
def isMoment (text : List Char) : Bool :=
  isDate text || isTime text ||
    (isDate (text.take 10) &&
      match text.drop 10 with
      | c :: rest => (c = 'T' || c = 't' || c = ' ') && isFullTime rest
      | [] => false)

------------------------------------------------------------
-- Scalars
------------------------------------------------------------

/- Read a truth value, a number or a point in time. -/
def scalar? (text : List Char) : Option Toml :=
  if text = ['t', 'r', 'u', 'e'] then some (.bool true)
  else if text = ['f', 'a', 'l', 's', 'e'] then some (.bool false)
  else if isMoment text then some (.moment (String.ofList text))
  else int? text <|> float? text

end Bindery.Toml

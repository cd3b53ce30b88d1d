import Bindery.Json.Writer

/-
  This file defines what can be wrong with the text of a
  document, and where.

  Key definitions include:
    * `Found`
    * `Fault`
    * `Fault.message`
    * `ReadError`
    * `ReadError.message`
-/

namespace Bindery.Json

/- A value that stands where another kind was expected. -/
inductive Found where
| null
| bool : Bool → Found
| int : Int → Found
| float : Float → Found
| text : String → Found
| sequence
| map
deriving Repr

/- How a found value is named in a message. -/
def Found.describe : Found → String
| .null => "null"
| .bool b => "boolean `" ++ (if b then "true" else "false") ++ "`"
| .int n => "integer `" ++ String.ofList (intChars n) ++ "`"
| .float x => "floating point `" ++ String.ofList (floatChars x) ++ "`"
| .text s => "string " ++ Text.quote s
| .sequence => "sequence"
| .map => "map"

/- What is wrong with a document. -/
inductive Fault where
| endInValue
| endInList
| endInObject
| endInString
| expectedValue
| expectedIdent
| expectedColon
| expectedListEnd
| expectedObjectEnd
| keyNotString
| trailingComma
| trailingCharacters
| invalidNumber
| numberOutOfRange
| invalidEscape
| loneSurrogate
| hexEscapeEnd
| controlCharacter
| recursionLimit
| wrongType (found : Found) (expected : String)
| wrongLength (length : Nat) (expected : String)
| missingField (name : String)
| duplicateField (name : String)
deriving Repr

/- The wording of a fault, without its place. -/
def Fault.message : Fault → String
| .endInValue => "EOF while parsing a value"
| .endInList => "EOF while parsing a list"
| .endInObject => "EOF while parsing an object"
| .endInString => "EOF while parsing a string"
| .expectedValue => "expected value"
| .expectedIdent => "expected ident"
| .expectedColon => "expected `:`"
| .expectedListEnd => "expected `,` or `]`"
| .expectedObjectEnd => "expected `,` or `\x7d`"
| .keyNotString => "key must be a string"
| .trailingComma => "trailing comma"
| .trailingCharacters => "trailing characters"
| .invalidNumber => "invalid number"
| .numberOutOfRange => "number out of range"
| .invalidEscape => "invalid escape"
| .loneSurrogate => "lone leading surrogate in hex escape"
| .hexEscapeEnd => "unexpected end of hex escape"
| .controlCharacter =>
    "control character (\\u0000-\\u001F) found while parsing a string"
| .recursionLimit => "recursion limit exceeded"
| .wrongType found expected =>
    "invalid type: " ++ found.describe ++ ", expected " ++ expected
| .wrongLength length expected =>
    "invalid length " ++ toString length ++ ", expected " ++ expected
| .missingField name => "missing field `" ++ name ++ "`"
| .duplicateField name => "duplicate field `" ++ name ++ "`"

/-
  A fault and the place where reading stopped: lines are
  counted from one, columns are the bytes since the line
  began.
-/
structure ReadError where
  fault : Fault
  line : Nat
  column : Nat
deriving Repr

/- The wording of a read error with its place. -/
def ReadError.message (e : ReadError) : String :=
  e.fault.message ++ " at line " ++ toString e.line ++
    " column " ++ toString e.column

end Bindery.Json

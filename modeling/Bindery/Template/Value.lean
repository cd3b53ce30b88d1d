import Bindery.Json.Writer
import Bindery.Template.TemplateError

/-
  This file defines the values that templates compute with,
  and their printed forms.

  Key definitions include:
    * `Value`
    * `Value.ofJson`
    * `Value.toJson`
    * `Value.display`
    * `Value.isTrue`
-/

namespace Bindery

namespace Template

/- A function that templates can call. -/
inductive Function where
| qualifiedName
| range
deriving DecidableEq, Repr

/-
  A value.  A text is safe if it may stand unescaped in the
  output.  The entries of a map keep their order.
-/
inductive Value where
| undefined
| none
| bool : Bool → Value
| int : Int → Value
| float : Float → Value
| text (content : String) (safe : Bool)
| list : List Value → Value
| map : List (Value × Value) → Value
| function : Function → Value
deriving Repr, Inhabited

namespace Value

/- A text that is escaped where the output asks for it. -/
def plain (content : String) : Value :=
  .text content false

------------------------------------------------------------
-- Documents
------------------------------------------------------------

mutual

/- The value of a document. -/
def ofJson : Json → Value
| .null => .none
| .bool b => .bool b
| .int n => .int n
| .float x => .float x
| .text s => .plain s
| .array items => .list (ofItems items)
| .object members => .map (ofMembers members)

/- The values of the elements of an array. -/
def ofItems : List Json → List Value
| [] => []
| item :: rest => ofJson item :: ofItems rest

/- The entries of the members of an object. -/
def ofMembers : List (String × Json) → List (Value × Value)
| [] => []
| (key, value) :: rest =>
    (.plain key, ofJson value) :: ofMembers rest

end

------------------------------------------------------------
-- Printed Forms
------------------------------------------------------------

/- The name that a function is printed as. -/
def functionName : Function → String
| .qualifiedName => "declgen_codegen::template::fq_name_filter"
| .range => "minijinja::functions::builtins::range"

/- A floating-point number in a layout, also if it is not finite. -/
def floatText
    (layout : Layout)
    (x : Float) : String :=
  if x.isNaN then "NaN"
  else if x.isInf then (if x < 0.0 then "-inf" else "inf")
  else String.ofList (layout.write x)

/- A truth value as it is printed. -/
def boolText (b : Bool) : String :=
  if b then "True" else "False"

/- An integer in decimal. -/
def intText (n : Int) : String :=
  String.ofList (Json.intChars n)

mutual

/- A value as it is shown within a list or a map. -/
def inspect : Value → String
| .undefined => "undefined"
| .none => "None"
| .bool b => boolText b
| .int n => intText n
| .float x => floatText Layout.listed x
| .text s _ => Text.quote s
| .list items => "[" ++ String.intercalate ", " (inspectItems items) ++ "]"
| .map entries =>
    "\x7b" ++ String.intercalate ", " (inspectEntries entries) ++ "\x7d"
| .function f => functionName f

/- The elements of a list as they are shown. -/
def inspectItems : List Value → List String
| [] => []
| item :: rest => inspect item :: inspectItems rest

/- The entries of a map as they are shown. -/
def inspectEntries : List (Value × Value) → List String
| [] => []
| (key, value) :: rest =>
    (inspect key ++ ": " ++ inspect value) :: inspectEntries rest

end

/- A value as it is printed. -/
def display : Value → String
| .undefined => ""
| .float x => floatText Layout.plain x
| .text s _ => s
| value => value.inspect

/- Whether a value counts as true. -/
def isTrue : Value → Bool
| .undefined => false
| .none => false
| .bool b => b
| .int n => n != 0
| .float x => x != 0.0
| .text s _ => !s.isEmpty
| .list items => !items.isEmpty
| .map entries => !entries.isEmpty
| .function _ => true

------------------------------------------------------------
-- Values as Documents
------------------------------------------------------------

/- A value as the key of an object. -/
def toKey : Value → Except TemplateError String
| .text s _ => .ok s
| .int n => .ok (intText n)
| .bool b => .ok (if b then "true" else "false")
| .float x =>
    if x.isFinite then .ok (String.ofList (Layout.data.write x))
    else .error .badSerialization
| .function f => .ok (functionName f)
| _ => .error .badSerialization

mutual

/- The document of a value. -/
def toJson : Value → Except TemplateError Json
| .undefined => .ok .null
| .none => .ok .null
| .bool b => .ok (.bool b)
| .int n => .ok (.int n)
| .float x => .ok (.float x)
| .text s _ => .ok (.text s)
| .list items => do
    let items ← toItems items
    .ok (.array items)
| .map entries => do
    let members ← toMembers entries
    .ok (.object members)
| .function f => .ok (.text (functionName f))

/- The documents of the elements of a list. -/
def toItems : List Value → Except TemplateError (List Json)
| [] => .ok []
| item :: rest => do
    let item ← toJson item
    let rest ← toItems rest
    .ok (item :: rest)

/- The members of the entries of a map. -/
def toMembers :
    List (Value × Value) → Except TemplateError (List (String × Json))
| [] => .ok []
| (key, value) :: rest => do
    let key ← toKey key
    let value ← toJson value
    let rest ← toMembers rest
    .ok ((key, value) :: rest)

end

end Value

end Template

end Bindery

import Bindery.QualifiedName
import Bindery.Template.Arguments
import Bindery.Text.LetterCase

/-
  This file defines the filters that templates apply to values.

  Key definitions include:
    * `joinValues`
    * `sortFilter`
    * `jsonText`
    * `joinSegments`
    * `applyFilter`
-/

namespace Bindery.Template

------------------------------------------------------------
-- Texts
------------------------------------------------------------

/- The filters that turn the printed form of a value into a text. -/
def textFilter? : String → Option (String → String)
| "title" => some (fun s => String.ofList (Text.title s.toList))
| "upper" => some (fun s => String.ofList (Text.upper s.toList))
| "lower" => some (fun s => String.ofList (Text.lower s.toList))
| "namespace_of" => some namespaceOf
| "local_name" => some localName
| _ => none

/- A text without some characters at either end. -/
def trimChars
    (chars s : List Char) : List Char :=
  ((s.dropWhile chars.contains).reverse.dropWhile chars.contains).reverse

/- Trim blanks, or the characters of an argument. -/
def trimFilter
    (subject : Value)
    (givens : List Given) : Except TemplateError Value := do
  let (chars, rest) ← optional Given.text givens
  noMore rest
  let s := subject.display.toList
  match chars with
  | some chars => .ok (.plain (String.ofList (trimChars chars.toList s)))
  | none => .ok (.plain (String.ofList (Text.trim s)))

/- Replace a text by another one. -/
def replaceFilter
    (subject : Value)
    (givens : List Given) : Except TemplateError Value := do
  let (old, rest) ← required Given.text givens
  let (new, rest) ← required Given.text rest
  noMore rest
  .ok (.plain (String.ofList
    (Text.replaceAll old.toList new.toList subject.display.toList)))

------------------------------------------------------------
-- Lists
------------------------------------------------------------

/- The number of characters, elements or entries. -/
def lengthOf : Value → Except TemplateError Value
| .text s _ => .ok (.int s.length)
| .list items => .ok (.int items.length)
| .map entries => .ok (.int entries.length)
| _ => .error .invalidOperation

/- The first character, element or key; undefined if there is none. -/
def firstOf : Value → Except TemplateError Value
| .text s _ => .ok ((Value.characters s).head?.getD .undefined)
| .list items => .ok (items.head?.getD .undefined)
| .map entries => .ok ((entries.map Prod.fst).head?.getD .undefined)
| _ => .error .invalidOperation

/- The last character or element; undefined if there is none. -/
def lastOf : Value → Except TemplateError Value
| .text s _ => .ok ((Value.characters s).getLast?.getD .undefined)
| .list items => .ok (items.getLast?.getD .undefined)
| _ => .error .invalidOperation

/- The characters, elements or keys in reverse order. -/
def reverseOf : Value → Except TemplateError Value
| .undefined => .ok .undefined
| .none => .ok .none
| .text s _ => .ok (.plain (String.ofList s.toList.reverse))
| .list items => .ok (.list items.reverse)
| .map entries => .ok (.list (entries.map Prod.fst).reverse)
| _ => .error .invalidOperation

/- The keys and values of a map as lists of two elements. -/
def itemsOf : Value → Except TemplateError Value
| .map entries =>
    .ok (.list (entries.map (fun (key, value) => .list [key, value])))
| _ => .error .invalidOperation

/- The elements of a value as a list. -/
def listOf (value : Value) : Except TemplateError Value := do
  let items ← value.elements
  .ok (.list items)

/- The printed forms of elements with a text between them. -/
def joinValues
    (separator : String)
    (value : Value) : Except TemplateError Value := do
  let items ← value.elements
  .ok (.plain (String.intercalate separator (items.map Value.display)))

/- Join elements, by default without a text between them. -/
def joinFilter
    (subject : Value)
    (givens : List Given) : Except TemplateError Value := do
  let (separator, rest) ← optional Given.text givens
  noMore rest
  joinValues (separator.getD "") subject

/-
  The part of a value that a dotted path leads to.  Numbers in
  the path are indices.
-/
def followPath
    (value : Value) : List String → Except TemplateError Value
| [] => .ok value
| step :: rest =>
    match value with
    | .undefined => .error .undefinedValue
    | _ =>
        let part :=
          match step.toNat? with
          | some n => value.item? (.int n)
          | none => value.attribute? step
        followPath (part.getD .undefined) rest

/- The part of a value that a key or a dotted path leads to. -/
def partAt
    (key value : Value) : Except TemplateError Value :=
  match key with
  | .text path _ => followPath value (path.splitOn ".")
  | _ =>
      match value with
      | .undefined => .error .undefinedValue
      | _ => .ok ((value.item? key).getD .undefined)

/- The order of two values when letter case may not count. -/
def orderWith
    (caseCounts : Bool)
    (x y : Value) : Ordering :=
  match caseCounts, x, y with
  | false, .text s _, .text t _ =>
      compare (s.map Char.toLower) (t.map Char.toLower)
  | _, _, _ => Value.order x y

/- The order of two values by what a path leads to in them. -/
def orderBy
    (path : Option Value)
    (caseCounts : Bool)
    (x y : Value) : Ordering :=
  match path with
  | none => orderWith caseCounts x y
  | some path =>
      match partAt path x, partAt path y with
      | .ok a, .ok b => orderWith caseCounts a b
      | _, _ => .eq

/- Sort the elements of a value. -/
def sortFilter
    (subject : Value)
    (arguments : Arguments) : Except TemplateError Value := do
  noMore (arguments.positional.map Given.value)
  let items ← subject.elements
  let caseCounts ← namedTruth "case_sensitive" arguments.named
  let path ←
    match namedValue "attribute" arguments.named with
    | some (.text s safe) => Except.ok (some (Value.text s safe))
    | some _ => .error .invalidOperation
    | none => .ok none
  let backward ← namedTruth "reverse" arguments.named
  onlyNames ["case_sensitive", "attribute", "reverse"] arguments.named
  let sorted :=
    items.mergeSort (fun x y => orderBy path caseCounts x y != .gt)
  .ok (.list (if backward then sorted.reverse else sorted))

/- A part of every element, or a default where it is missing. -/
def mapParts
    (key : Value)
    (named : List (String × Value))
    (subject : Value) : Except TemplateError Value := do
  onlyNames ["attribute", "default"] named
  let default := (named.lookup "default").getD .undefined
  let items ← subject.elements
  let parts ← items.mapM fun item =>
    match partAt key item, default with
    | .ok .undefined, _ => Except.ok default
    | .ok part, _ => .ok part
    | .error e, .undefined => .error e
    | .error _, _ => .ok default
  .ok (.list parts)

------------------------------------------------------------
-- Defaults
------------------------------------------------------------

/-
  A replacement for undefined values, and for all values that
  do not count as true if the second argument says so.
-/
def defaultFilter
    (subject : Value)
    (givens : List Given) : Except TemplateError Value := do
  let (other, rest) ← optional (fun given => .ok given.toValue) givens
  let (lax, rest) ← optional Given.truth rest
  noMore rest
  let other := other.getD (.plain "")
  match subject with
  | .undefined => .ok other
  | _ =>
      if lax.getD false && !subject.isTrue then .ok other
      else .ok subject

------------------------------------------------------------
-- Documents
------------------------------------------------------------

/- A character of a document that is safe within a page. -/
def pageSafe (c : Char) : List Char :=
  if c = '<' then ['\\', 'u', '0', '0', '3', 'c']
  else if c = '>' then ['\\', 'u', '0', '0', '3', 'e']
  else if c = '&' then ['\\', 'u', '0', '0', '2', '6']
  else if c = '\'' then ['\\', 'u', '0', '0', '2', '7']
  else [c]

/- The width of an indentation, if there is one. -/
def indentWidth : Option Value → Except TemplateError (Option Nat)
| none => .ok none
| some (.bool b) => .ok (if b then some 2 else none)
| some value =>
    match value.wholeNumber? with
    | some n =>
        if 0 ≤ n then .ok (some n.toNat) else .error .invalidOperation
    | none => .error .invalidOperation

/- The document of a value, safe within a page. -/
def jsonText
    (width : Option Nat)
    (value : Value) : Except TemplateError Value := do
  let json ← value.toJson
  let chars :=
    match width with
    | some n => Json.indentedChars n 0 json
    | none => json.chars
  .ok (.text (String.ofList (chars.flatMap pageSafe)) true)

/- The document of a value, indented if an argument says so. -/
def jsonFilter
    (subject : Value)
    (arguments : Arguments) : Except TemplateError Value := do
  let (indent, rest) ←
    optional (fun given => .ok given.toValue)
      (arguments.positional.map Given.value)
  noMore rest
  let width ←
    indentWidth (indent <|> namedValue "indent" arguments.named)
  onlyNames ["indent"] arguments.named
  jsonText width subject

------------------------------------------------------------
-- Names
------------------------------------------------------------

/- The qualified name of a list of segments. -/
def joinSegments : Value → Except TemplateError Value
| .list segments =>
    .ok (.plain (qualifiedName (segments.map Value.display)))
| _ => .error .invalidOperation

------------------------------------------------------------
-- All Filters
------------------------------------------------------------

/- The filters that take no arguments. -/
def plainFilter? :
    String → Option (Value → Except TemplateError Value)
| "length" => some lengthOf
| "first" => some firstOf
| "last" => some lastOf
| "reverse" => some reverseOf
| "items" => some itemsOf
| "list" => some listOf
| "safe" => some (fun value => .ok (.text value.display true))
| _ => none

/- Apply a filter other than `map`. -/
def applyFilterWith
    (name : String)
    (subject : Value)
    (arguments : Arguments) : Except TemplateError Value :=
  match textFilter? name with
  | some f => do
      noMore arguments.all
      .ok (.plain (f subject.display))
  | none =>
      match plainFilter? name with
      | some f => do
          noMore arguments.all
          f subject
      | none =>
          match name with
          | "fq_name" => do
              let value ← joinSegments subject
              noMore arguments.all
              .ok value
          | "trim" => trimFilter subject arguments.all
          | "replace" => replaceFilter subject arguments.all
          | "join" => joinFilter subject arguments.all
          | "default" => defaultFilter subject arguments.all
          | "sort" => sortFilter subject arguments
          | "tojson" => jsonFilter subject arguments
          | _ => .error .unknownFilter

/-
  Apply a filter.  The filter `map` applies the filter that its
  first argument names to every element, with the arguments
  that follow the name.
-/
def applyFilter
    (name : String)
    (subject : Value)
    (named : List (String × Value)) :
    List Value → Except TemplateError Value
| [] =>
    if name = "map" then
      match namedValue "attribute" named with
      | some key => mapParts key named subject
      | none => .error .invalidOperation
    else
      applyFilterWith name subject ⟨[], named⟩
| first :: rest =>
    if name = "map" then
      match namedValue "attribute" named, first with
      | some _, _ => .error .tooManyArguments
      | none, .text inner _ => do
          let items ← subject.elements
          let mapped ← items.mapM (fun item => applyFilter inner item [] rest)
          .ok (.list mapped)
      | none, _ => .error .invalidOperation
    else
      applyFilterWith name subject ⟨first :: rest, named⟩

end Bindery.Template

import Bindery.Template.Compare

/-
  This file defines the arguments of filters, tests and
  functions, and how they are taken one after the other.

  Where named arguments are not asked for, all of them together
  count as one more argument, a map.

  Key definitions include:
    * `Arguments`
    * `Given`
    * `Arguments.all`
    * `Given.text`
    * `noMore`
-/

namespace Bindery.Template

/- The values of arguments, with the names of the named ones. -/
structure Arguments where
  positional : List Value
  named : List (String × Value)

namespace Arguments

/- Values of which the last ones are named. -/
def ofValues
    (values : List Value)
    (keywords : List String) : Arguments :=
  let count := values.length - keywords.length
  ⟨values.take count, keywords.zip (values.drop count)⟩

end Arguments

/- An argument that is given: a value, or all named values. -/
inductive Given where
| value : Value → Given
| named : List (String × Value) → Given

namespace Given

/- The argument as a value. -/
def toValue : Given → Value
| .value v => v
| .named entries =>
    .map (entries.map (fun (word, v) => (.plain word, v)))

/- The argument as a text; named values are no text. -/
def text : Given → Except TemplateError String
| .value v => .ok v.display
| .named _ => .error .invalidOperation

/- Whether the argument counts as missing where it is optional. -/
def isMissing : Given → Bool
| .value .undefined => true
| .value .none => true
| _ => false

/- The argument as a truth value. -/
def truth : Given → Except TemplateError Bool
| .value (.bool b) => .ok b
| _ => .error .invalidOperation

/- The argument as an integer below `2 ^ 32`. -/
def count : Given → Except TemplateError Nat
| .value v =>
    match v.wholeNumber? with
    | some n =>
        if 0 ≤ n ∧ n < 0x100000000 then .ok n.toNat
        else .error .invalidOperation
    | none => .error .invalidOperation
| .named _ => .error .invalidOperation

end Given

/- All arguments in order. -/
def Arguments.all (arguments : Arguments) : List Given :=
  arguments.positional.map Given.value ++
    (if arguments.named.isEmpty then [] else [.named arguments.named])

/- Read an argument that must be there. -/
def required
    {α : Type}
    (read : Given → Except TemplateError α) :
    List Given → Except TemplateError (α × List Given)
| [] => .error .missingArgument
| given :: rest => do
    let a ← read given
    .ok (a, rest)

/- Read an argument that may be missing. -/
def optional
    {α : Type}
    (read : Given → Except TemplateError α) :
    List Given → Except TemplateError (Option α × List Given)
| [] => .ok (none, [])
| given :: rest =>
    if given.isMissing then .ok (none, rest)
    else do
      let a ← read given
      .ok (some a, rest)

/- Refuse arguments that nothing asks for. -/
def noMore (rest : List Given) : Except TemplateError Unit :=
  if rest.isEmpty then .ok () else .error .tooManyArguments

/- A named value that may be missing. -/
def namedValue
    (word : String)
    (named : List (String × Value)) : Option Value :=
  match named.lookup word with
  | some .undefined => none
  | some .none => none
  | found => found

/- Refuse names that nothing asks for. -/
def onlyNames
    (words : List String)
    (named : List (String × Value)) : Except TemplateError Unit :=
  if named.all (fun entry => words.contains entry.1) then .ok ()
  else .error .tooManyArguments

/- A named truth value, false if it is missing. -/
def namedTruth
    (word : String)
    (named : List (String × Value)) : Except TemplateError Bool :=
  match namedValue word named with
  | some v => (Given.value v).truth
  | none => .ok false

end Bindery.Template

import Bindery.Keyed
import Bindery.Template.Value

/-
  This file defines the variables of a running template: frames
  of local variables, innermost first.

  Key definitions include:
    * `Frame`
    * `Scope`
    * `Scope.lookup?`
    * `Scope.assign`
    * `loopValue`
-/

namespace Bindery.Template

/- Local variables, and the state of a loop if there is one. -/
structure Frame where
  locals : List (String × Value)
  loop : Option Value

/- A frame without variables. -/
def Frame.empty : Frame :=
  ⟨[], none⟩

/- Frames, innermost first. -/
abbrev Scope :=
  List Frame

namespace Scope

/- The value of a variable in the innermost frame that has it. -/
def lookup?
    (name : String) : Scope → Option Value
| [] => none
| frame :: rest =>
    match Keyed.get? name frame.locals with
    | some value => some value
    | none =>
        match frame.loop with
        | some state =>
            if name = "loop" then some state else lookup? name rest
        | none => lookup? name rest

/- Assign a value to a variable of the innermost frame. -/
def assign
    (name : String)
    (value : Value) : Scope → Scope
| [] => [⟨[(name, value)], none⟩]
| frame :: rest =>
    { frame with locals := Keyed.put name value frame.locals } :: rest

/- Set the state of the loop of the innermost frame. -/
def setLoop (state : Value) : Scope → Scope
| [] => [⟨[], some state⟩]
| frame :: rest => { frame with loop := some state } :: rest

end Scope

/- What a template can ask about a loop while it runs. -/
def loopValue
    (index length : Nat)
    (previous next : Value) : Value :=
  let number : Nat → Value := fun n => .int n
  .map
    [(.plain "index", number (index + 1)),
      (.plain "index0", number index),
      (.plain "revindex", number (length - index)),
      (.plain "revindex0", number (length - index - 1)),
      (.plain "first", .bool (index == 0)),
      (.plain "last", .bool (index + 1 == length)),
      (.plain "length", number length),
      (.plain "depth", number 1),
      (.plain "depth0", number 0),
      (.plain "previtem", previous),
      (.plain "nextitem", next)]

end Bindery.Template

/-
  This file defines log events, and computations that emit
  events before they succeed or fail.

  Key definitions include:
    * `Level`
    * `Topic`
    * `Event`
    * `Traced`
    * `Traced.emit`
    * `Traced.fail`

  Key theorems include:
    * `Traced.outcome_bind`
-/

namespace Bindery

/- How important an event is. -/
inductive Level where
| debug
| warn
deriving DecidableEq, Repr

/- Which part of the program speaks. -/
inductive Topic where
| context
| template
| runtime
| registry
| generate
| directory
deriving DecidableEq, Repr

/- The name of a topic in a log line. -/
def Topic.text : Topic → String
| .context => "declgen_codegen::context"
| .template => "declgen_codegen::template"
| .runtime => "declgen_codegen::runtime"
| .registry => "declgen_codegen::registry"
| .generate => "declgen_codegen::generate"
| .directory => "declgen_codegen::plugin::directory"

/- Something worth logging. -/
structure Event where
  level : Level
  topic : Topic
  message : String
  fields : List (String × String)
deriving DecidableEq, Repr

/- Events in the order of their emission, and an outcome. -/
structure Traced (ε α : Type) where
  events : List Event
  outcome : Except ε α

namespace Traced

variable {ε α β : Type}

/- Emit nothing and succeed. -/
def pure (a : α) : Traced ε α :=
  ⟨[], .ok a⟩

/- Emit nothing and fail. -/
def fail (e : ε) : Traced ε α :=
  ⟨[], .error e⟩

/- Emit events. -/
def emit (events : List Event) : Traced ε Unit :=
  ⟨events, .ok ()⟩

/- Emit nothing and take an outcome over. -/
def ofExcept (r : Except ε α) : Traced ε α :=
  ⟨[], r⟩

/- Continue after a success, keeping the events so far. -/
def bind
    (t : Traced ε α)
    (f : α → Traced ε β) : Traced ε β :=
  match t.outcome with
  | .ok a => ⟨t.events ++ (f a).events, (f a).outcome⟩
  | .error e => ⟨t.events, .error e⟩

instance : Monad (Traced ε) where
  pure := Traced.pure
  bind := Traced.bind

/- Change the error of a failure. -/
def mapError
    {ε' : Type}
    (f : ε → ε')
    (t : Traced ε α) : Traced ε' α :=
  ⟨t.events,
    match t.outcome with
    | .ok a => .ok a
    | .error e => .error (f e)⟩

/- The outcome of a sequence does not depend on the events. -/
@[simp] theorem outcome_bind
    (t : Traced ε α)
    (f : α → Traced ε β) :
    (t >>= f).outcome = t.outcome.bind (fun a => (f a).outcome) := by
  rcases t with ⟨events, outcome⟩
  cases outcome with
  | ok a => rfl
  | error e => rfl

@[simp] theorem outcome_pure (a : α) :
    (Traced.pure a : Traced ε α).outcome = .ok a := rfl

@[simp] theorem outcome_fail (e : ε) :
    (Traced.fail e : Traced ε α).outcome = .error e := rfl

@[simp] theorem outcome_emit (events : List Event) :
    (Traced.emit events : Traced ε Unit).outcome = .ok () := rfl

@[simp] theorem outcome_ofExcept (r : Except ε α) :
    (Traced.ofExcept r).outcome = r := rfl

end Traced

end Bindery

import Bindery.Keyed
import Bindery.Target.TemplateTarget
import Bindery.Text.Quoted

/-
  This file defines the registry of targets.  Targets are listed
  in the order of their first registrations; the last
  registration of a target is the one that counts.

  Key definitions include:
    * `Registration`
    * `Registry`
    * `Registry.register`
    * `Registry.lookup`
    * `Registry.provider?`
    * `Registry.generate`
-/

namespace Bindery

/- The plugin that registered a target, and its generator. -/
structure Registration where
  plugin : String
  generator : Generator

/- Registrations by target id. -/
structure Registry where
  entries : List (String × Registration)

namespace Registry

/- The registry without targets. -/
def empty : Registry :=
  ⟨[]⟩

instance : EmptyCollection Registry :=
  ⟨empty⟩

/- The registration of a target. -/
def get?
    (registry : Registry)
    (id : String) : Option Registration :=
  Keyed.get? id registry.entries

/- The ids of all targets in order. -/
def targets (registry : Registry) : List String :=
  Keyed.keys registry.entries

/- The number of targets. -/
def size (registry : Registry) : Nat :=
  registry.entries.length

/- Whether a target is registered. -/
def contains
    (registry : Registry)
    (id : String) : Bool :=
  (registry.get? id).isSome

/- The plugin that provides a target. -/
def provider?
    (registry : Registry)
    (id : String) : Option String :=
  (registry.get? id).map Registration.plugin

/- The event of a registration, a warning if it replaces one. -/
def registeredEvent
    (registry : Registry)
    (plugin id : String) : Event :=
  match registry.get? id with
  | some previous =>
      ⟨.warn, .registry,
        "target registered again, the last registration wins",
        [("id", id), ("previous", previous.plugin),
          ("plugin", plugin)]⟩
  | none =>
      ⟨.debug, .registry, "registered target",
        [("id", id), ("plugin", plugin)]⟩

/- The registry after a registration. -/
def insert
    (registry : Registry)
    (plugin id : String)
    (generator : Generator) : Registry :=
  ⟨Keyed.put id ⟨plugin, generator⟩ registry.entries⟩

/- Register a target for a plugin. -/
def register
    {ε : Type}
    (registry : Registry)
    (plugin id : String)
    (generator : Generator) : Traced ε Registry :=
  ⟨[registry.registeredEvent plugin id],
    .ok (registry.insert plugin id generator)⟩

/- The generator of a target. -/
def lookup
    (registry : Registry)
    (id : String) : Except GenerationError Generator :=
  match registry.get? id with
  | some registration => .ok registration.generator
  | none => .error (.unknownTarget id registry.targets)

/- The event of a generation being started. -/
def startedEvent
    (id : String)
    (schema : Schema) : Event :=
  ⟨.debug, .generate, "generating target",
    [("id", id), ("decls", toString schema.decls.length)]⟩

/- Run the generator of a target on a schema. -/
def generate
    (registry : Registry)
    (fs : FileSystem)
    (schema : Schema)
    (id : String) : Traced GenerationError Generation := do
  let generator ← Traced.ofExcept (registry.lookup id)
  Traced.emit [startedEvent id schema]
  generator fs schema

/- Targets with their plugins, as shown for inspection. -/
def inspect (registry : Registry) : String :=
  "\x7b" ++
    String.intercalate ", "
      (registry.entries.map (fun (id, registration) =>
        Text.quote id ++ ": " ++ Text.quote registration.plugin)) ++
    "\x7d"

end Registry

end Bindery

import Bindery.Proofs.Keyed
import Bindery.Target.Registry

/-
  This file says what a registry tells about the registrations
  that were made with it: targets are listed in the order of
  their first registrations, and the last registration of a
  target is the one that counts.

  Key definitions include:
    * `History`
    * `History.IsLatest`
    * `Registry.insertAll`
    * `Registry.registerAll`
    * `Registry.Reflects`

  Key theorems include:
    * `Registry.reflects_insertAll`
    * `Registry.getElem?_events_registerAll`
    * `Registry.registerAll_history`
-/

namespace Bindery

------------------------------------------------------------
-- Histories
------------------------------------------------------------

/- Registrations by target id, in the order in which they are made. -/
abbrev History :=
  List (String × Registration)

namespace History

variable {history : History} {id : String} {registration : Registration}

/- The ids of all registrations, repeats included. -/
def ids (history : History) : List String :=
  Keyed.keys history

theorem ids_append (first second : History) :
    ids (first ++ second) = ids first ++ ids second :=
  List.map_append

/- Whether a registration is the last one of a target. -/
def IsLatest
    (history : History)
    (id : String)
    (registration : Registration) : Prop :=
  ∃ before after, history = before ++ (id, registration) :: after ∧
    id ∉ ids after

theorem get?_reverse_eq_some_iff :
    Keyed.get? id history.reverse = some registration ↔
      history.IsLatest id registration :=
  Keyed.get?_reverse_eq_some_iff

theorem get?_reverse_eq_none_iff :
    Keyed.get? id history.reverse = none ↔ id ∉ history.ids := by
  rw [Keyed.get?_eq_none_iff]
  simp [ids, Keyed.keys]

/- A target has no two last registrations. -/
theorem IsLatest.unique
    {other : Registration}
    (h : history.IsLatest id registration)
    (hOther : history.IsLatest id other) :
    registration = other := by
  rw [← get?_reverse_eq_some_iff] at h hOther
  exact Option.some.inj (h.symm.trans hOther)

/- A target that was registered has a last registration. -/
theorem exists_isLatest (h : id ∈ history.ids) :
    ∃ registration, history.IsLatest id registration := by
  cases hGet : Keyed.get? id history.reverse with
  | none => exact absurd h (get?_reverse_eq_none_iff.mp hGet)
  | some registration =>
      exact ⟨registration, get?_reverse_eq_some_iff.mp hGet⟩

/- How the targets of a history are listed in a sentence. -/
theorem listIds_eraseDups (history : History) :
    listIds history.ids.eraseDups =
      if history.isEmpty then "none"
      else String.intercalate ", " history.ids.eraseDups := by
  cases history with
  | nil => rfl
  | cons entry rest =>
      rw [listIds, ids, Keyed.keys, List.map_cons, List.eraseDups_cons]
      rfl

end History

------------------------------------------------------------
-- Registries
------------------------------------------------------------

namespace Registry

variable {history : History} {registry : Registry}

/- The registry after several registrations. -/
def insertAll
    (registry : Registry)
    (history : History) : Registry :=
  ⟨Keyed.putAll history registry.entries⟩

theorem insertAll_append
    (registry : Registry)
    (first second : History) :
    registry.insertAll (first ++ second) =
      (registry.insertAll first).insertAll second :=
  congrArg Registry.mk (Keyed.putAll_append first second _)

/- The last registration of a target is the one that is found. -/
theorem get?_insertAll
    (history : History)
    (id : String) :
    (empty.insertAll history).get? id =
      Keyed.get? id history.reverse := by
  rw [get?, insertAll, Keyed.get?_putAll]
  exact Option.or_none

/- Targets are listed in the order of their first registrations. -/
theorem targets_insertAll (history : History) :
    (empty.insertAll history).targets = history.ids.eraseDups := by
  rw [targets, insertAll, Keyed.keys_putAll]
  simp [empty, Keyed.keys, History.ids]

/-
  Whether a registry tells about a history what it should: its
  targets, who provides them and how they are generated, and
  which of them are unknown.
-/
structure Reflects
    (registry : Registry)
    (history : History) : Prop where
  targets : registry.targets = history.ids.eraseDups
  provider : ∀ id plugin, registry.provider? id = some plugin ↔
    ∃ registration, history.IsLatest id registration ∧
      registration.plugin = plugin
  lookup : ∀ id generator, registry.lookup id = .ok generator ↔
    ∃ registration, history.IsLatest id registration ∧
      registration.generator = generator
  unknown : ∀ id e, registry.lookup id = .error e ↔
    id ∉ history.ids ∧ e = .unknownTarget id registry.targets

/- The registry after a history reflects the history. -/
theorem reflects_insertAll (history : History) :
    (empty.insertAll history).Reflects history where
  targets := targets_insertAll history
  provider := fun id plugin => by
    rw [provider?, get?_insertAll, Option.map_eq_some_iff]
    simp only [History.get?_reverse_eq_some_iff]
  lookup := fun id generator => by
    simp only [Registry.lookup, get?_insertAll,
      ← History.get?_reverse_eq_some_iff]
    cases Keyed.get? id history.reverse <;> simp
  unknown := fun id e => by
    simp only [Registry.lookup, get?_insertAll,
      ← History.get?_reverse_eq_none_iff]
    cases Keyed.get? id history.reverse <;> simp [eq_comm]

/- What is found is the last registration of a target. -/
theorem Reflects.isLatest_of_get?
    (h : registry.Reflects history)
    {id : String}
    {registration : Registration}
    (hGet : registry.get? id = some registration) :
    history.IsLatest id registration := by
  have hProvider : registry.provider? id = some registration.plugin := by
    rw [provider?, hGet, Option.map_some]
  have hLookup : registry.lookup id = .ok registration.generator := by
    rw [Registry.lookup, hGet]
  rcases (h.provider _ _).mp hProvider with ⟨one, hOne, hPlugin⟩
  rcases (h.lookup _ _).mp hLookup with ⟨other, hOther, hGenerator⟩
  obtain rfl := hOne.unique hOther
  cases one
  cases registration
  cases hPlugin
  cases hGenerator
  exact hOne

theorem Reflects.get?_eq_some_iff
    (h : registry.Reflects history)
    {id : String}
    {registration : Registration} :
    registry.get? id = some registration ↔
      history.IsLatest id registration := by
  refine ⟨h.isLatest_of_get?, fun hLatest => ?_⟩
  have hProvider := (h.provider id registration.plugin).mpr
    ⟨registration, hLatest, rfl⟩
  rcases Option.map_eq_some_iff.mp hProvider with ⟨other, hGet, -⟩
  rw [hGet, (h.isLatest_of_get? hGet).unique hLatest]

/- Registries that reflect the same history are the same. -/
theorem Reflects.unique
    {other : Registry}
    (h : registry.Reflects history)
    (hOther : other.Reflects history) :
    registry = other := by
  have hNodup : (Keyed.keys registry.entries).Nodup := by
    rw [show Keyed.keys registry.entries = _ from h.targets]
    exact nodup_eraseDups _
  have hEntries : registry.entries = other.entries := by
    refine Keyed.eq_of_keys_of_get? hNodup
      (h.targets.trans hOther.targets.symm) fun id => ?_
    apply Option.ext
    intro registration
    exact h.get?_eq_some_iff.trans hOther.get?_eq_some_iff.symm
  cases registry
  cases other
  exact congrArg Registry.mk hEntries

------------------------------------------------------------
-- Registering
------------------------------------------------------------

/- Make registrations one after the other. -/
def registerAll
    {ε : Type} :
    History → Registry → Traced ε Registry
| [], registry => Traced.pure registry
| (id, registration) :: rest, registry => do
    let registry ←
      registry.register registration.plugin id registration.generator
    registerAll rest registry

theorem outcome_registerAll
    {ε : Type}
    (history : History)
    (registry : Registry) :
    (registerAll history registry : Traced ε Registry).outcome =
      .ok (registry.insertAll history) := by
  induction history generalizing registry with
  | nil => rfl
  | cons entry rest ih => exact ih _

theorem events_registerAll_cons
    {ε : Type}
    (id : String)
    (registration : Registration)
    (rest : History)
    (registry : Registry) :
    (registerAll ((id, registration) :: rest) registry :
        Traced ε Registry).events =
      registry.registeredEvent registration.plugin id ::
        (registerAll rest
          (registry.insertAll [(id, registration)]) :
            Traced ε Registry).events := rfl

/- Each registration emits one event. -/
theorem length_events_registerAll
    {ε : Type}
    (history : History)
    (registry : Registry) :
    (registerAll history registry : Traced ε Registry).events.length =
      history.length := by
  induction history generalizing registry with
  | nil => rfl
  | cons entry rest ih =>
      rw [events_registerAll_cons, List.length_cons, ih, List.length_cons]

/- A registration is judged by the registry before it. -/
theorem getElem?_events_registerAll
    {ε : Type}
    (before after : History)
    (id : String)
    (registration : Registration)
    (registry : Registry) :
    (registerAll (before ++ (id, registration) :: after) registry :
        Traced ε Registry).events[before.length]? =
      some ((registry.insertAll before).registeredEvent
        registration.plugin id) := by
  induction before generalizing registry with
  | nil => rfl
  | cons entry rest ih =>
      rw [List.cons_append, events_registerAll_cons, List.length_cons,
        List.getElem?_cons_succ, ih]
      rfl

/- A registration that replaces another one is warned about. -/
theorem registeredEvent_insertAll
    (history : History)
    (plugin id : String) :
    (((empty.insertAll history).registeredEvent plugin id).level =
        .warn ↔ id ∈ history.ids) ∧
      (id ∈ history.ids →
        ∃ previous, history.IsLatest id previous ∧
          (empty.insertAll history).registeredEvent plugin id =
            ⟨.warn, .registry,
              "target registered again, the last registration wins",
              [("id", id), ("previous", previous.plugin),
                ("plugin", plugin)]⟩) := by
  rw [registeredEvent, get?_insertAll]
  constructor
  · rw [← not_iff_not, ← History.get?_reverse_eq_none_iff]
    cases Keyed.get? id history.reverse <;> simp
  · intro hOld
    rcases History.exists_isLatest hOld with ⟨previous, hLatest⟩
    rw [History.get?_reverse_eq_some_iff.mpr hLatest]
    exact ⟨previous, hLatest, rfl⟩

/-
  Registrations always succeed, and the registry reflects their
  history.  Looking up a target that was never registered fails
  with a hint that lists those that were.  Each registration
  emits one event.  It is a warning if the target was registered
  before, and then it names the plugin of the last registration
  so far and that of the new one.
-/
theorem registerAll_history
    {ε : Type}
    (history : History) :
    ∃ registry,
      (registerAll history empty : Traced ε Registry).outcome =
        .ok registry ∧
      registry.Reflects history ∧
      (∀ id e, registry.lookup id = .error e →
        e.help = some ("available targets: " ++
          if history.isEmpty then "none"
          else String.intercalate ", " history.ids.eraseDups)) ∧
      (registerAll history empty : Traced ε Registry).events.length =
        history.length ∧
      ∀ (before : History) (id : String) (registration : Registration)
        (after : History),
        history = before ++ (id, registration) :: after →
        ∃ event,
          (registerAll history empty :
            Traced ε Registry).events[before.length]? = some event ∧
          (event.level = .warn ↔ id ∈ before.ids) ∧
          (id ∈ before.ids →
            ∃ previous, before.IsLatest id previous ∧
              event =
                ⟨.warn, .registry,
                  "target registered again, the last registration wins",
                  [("id", id), ("previous", previous.plugin),
                    ("plugin", registration.plugin)]⟩) := by
  have hReflects := reflects_insertAll history
  refine ⟨empty.insertAll history, outcome_registerAll history empty,
    hReflects, ?_, length_events_registerAll history empty, ?_⟩
  · intro id e hFail
    rcases (hReflects.unknown id e).mp hFail with ⟨-, rfl⟩
    rw [GenerationError.help, hReflects.targets, History.listIds_eraseDups]
  · rintro before id registration after rfl
    exact ⟨_, getElem?_events_registerAll before after id registration
      empty, registeredEvent_insertAll before registration.plugin id⟩

/- A target that is registered again after another one. -/
theorem registerAll_history_again :
    let made (name : String) : Generator :=
      fun _ _ => Traced.pure ⟨.empty, name⟩
    let before : History :=
      [("typescript", ⟨"one", made "a"⟩), ("golang", ⟨"two", made "b"⟩)]
    let history : History :=
      before ++ ("typescript", ⟨"three", made "c"⟩) :: []
    ∃ registry,
      (registerAll history empty : Traced Empty Registry).outcome =
        .ok registry ∧
      registry.targets = ["typescript", "golang"] ∧
      registry.provider? "typescript" = some "three" ∧
      (∃ e, registry.lookup "cpp" = .error e ∧
        e.help = some "available targets: typescript, golang") ∧
      (registerAll history empty : Traced Empty Registry).events[2]? =
        some ⟨.warn, .registry,
          "target registered again, the last registration wins",
          [("id", "typescript"), ("previous", "one"),
            ("plugin", "three")]⟩ := by
  intro made before history
  rcases registerAll_history (ε := Empty) history with
    ⟨registry, hOutcome, hReflects, hHelp, -, hEvents⟩
  rcases hEvents before "typescript" ⟨"three", made "c"⟩ [] rfl with
    ⟨event, hEvent, -, hWarning⟩
  rcases hWarning (by decide) with ⟨previous, hLatest, rfl⟩
  have hOne : some ⟨"one", made "a"⟩ = some previous :=
    History.get?_reverse_eq_some_iff.mpr hLatest
  obtain rfl := Option.some.inj hOne
  refine ⟨registry, hOutcome, hReflects.targets, ?_, ?_, hEvent⟩
  · exact (hReflects.provider _ _).mpr
      ⟨_, ⟨before, [], rfl, by decide⟩, rfl⟩
  · have hFail : registry.lookup "cpp" =
        .error (.unknownTarget "cpp" registry.targets) :=
      (hReflects.unknown _ _).mpr ⟨by decide, rfl⟩
    exact ⟨_, hFail, hHelp _ _ hFail⟩

end Registry

end Bindery

import Bindery.Proofs.RenderContext
import Bindery.Report.Check

/-
  This file says that the names which the report on a schema
  lists as declared more than once are those that are warned
  about when its declarations are put under their names.

  Key definitions include:
    * `warnedNames`
    * `Repeats`

  Key theorems include:
    * `Repeats.count_warned`
    * `Repeats.listed_eq`
    * `Repeats.listed_ordered`
    * `repeats_declareAll`
    * `CheckReport.ofFile_duplicates`
-/

namespace Bindery

------------------------------------------------------------
-- Names That Stand Again
------------------------------------------------------------

/-
  Which names have been warned about and which have been listed
  after some names have been passed: a name that stands again is
  warned about, and listed when it does so for the first time.
-/
inductive Repeats :
    List String → List String → List String → Prop
| start : Repeats [] [] []
| fresh {names warned listed : List String} {name : String} :
    Repeats names warned listed → name ∉ names →
      Repeats (names ++ [name]) warned listed
| second {names warned listed : List String} {name : String} :
    Repeats names warned listed → name ∈ names → name ∉ listed →
      Repeats (names ++ [name]) (warned ++ [name]) (listed ++ [name])
| further {names warned listed : List String} {name : String} :
    Repeats names warned listed → name ∈ names → name ∈ listed →
      Repeats (names ++ [name]) (warned ++ [name]) listed

namespace Repeats

variable {names warned listed : List String}

/- A name is warned about each time but the first. -/
theorem count_warned
    (h : Repeats names warned listed)
    (name : String) :
    warned.count name = names.count name - 1 := by
  have hAgain : ∀ {names warned : List String} {other : String},
      other ∈ names → warned.count name = names.count name - 1 →
      (warned ++ [other]).count name =
        (names ++ [other]).count name - 1 := by
    intro names warned other hOld ih
    have hPos := List.count_pos_iff.mpr hOld
    rw [List.count_append, List.count_append, ih, List.count_singleton]
    by_cases hName : other = name
    · subst hName
      simp only [beq_self_eq_true, if_true]
      omega
    · simp [hName]
  induction h with
  | start => rfl
  | @fresh names _ _ other _ hNew ih =>
      have hZero := List.count_eq_zero.mpr hNew
      rw [List.count_append, List.count_singleton, ih]
      by_cases hName : other = name
      · subst hName
        simp [hZero]
      · simp [hName]
  | second _ hOld _ ih => exact hAgain hOld ih
  | further _ hOld _ ih => exact hAgain hOld ih

/- What is listed is what is warned about, each name once. -/
theorem listed_eq (h : Repeats names warned listed) :
    listed = warned.eraseDups := by
  induction h with
  | start => rfl
  | fresh _ _ ih => exact ih
  | second _ _ hFirst ih =>
      rw [ih, List.mem_eraseDups] at hFirst
      rw [eraseDups_concat, if_neg hFirst, ih]
  | further _ _ hListed ih =>
      rw [ih, List.mem_eraseDups] at hListed
      rw [eraseDups_concat, if_pos hListed, ih]

/- The names that stand more than once are listed. -/
theorem mem_listed_iff
    (h : Repeats names warned listed)
    {name : String} :
    name ∈ listed ↔ 2 ≤ names.count name := by
  rw [h.listed_eq, List.mem_eraseDups, ← List.count_pos_iff,
    h.count_warned]
  omega

/- Each name is either the first of its kind or warned about. -/
theorem length_warned (h : Repeats names warned listed) :
    warned.length + names.eraseDups.length = names.length := by
  induction h with
  | start => rfl
  | fresh _ hNew ih =>
      rw [eraseDups_concat, if_neg hNew, List.length_append,
        List.length_append, ← ih, Nat.add_assoc]
  | second _ hOld _ ih =>
      rw [eraseDups_concat, if_pos hOld, List.length_append,
        List.length_append, ← ih, Nat.add_right_comm]
  | further _ hOld _ ih =>
      rw [eraseDups_concat, if_pos hOld, List.length_append,
        List.length_append, ← ih, Nat.add_right_comm]

/- A name that is listed has its second place, also later. -/
theorem idxOfNth_listed
    (h : Repeats names warned listed)
    {name : String}
    (hListed : name ∈ listed)
    (after : List String) :
    (names ++ after).idxOfNth name 1 = names.idxOfNth name 1 := by
  have hTwice : 1 < names.count name := h.mem_listed_iff.mp hListed
  rw [idxOfNth_append, if_pos hTwice]

/- Names are listed in the order of their second places. -/
theorem listed_ordered (h : Repeats names warned listed) :
    listed.Pairwise
      fun a b => names.idxOfNth a 1 < names.idxOfNth b 1 := by
  have hAppend : ∀ {names warned listed : List String}
      (after : List String), Repeats names warned listed →
      listed.Pairwise
        (fun a b => names.idxOfNth a 1 < names.idxOfNth b 1) →
      listed.Pairwise fun a b =>
        (names ++ after).idxOfNth a 1 < (names ++ after).idxOfNth b 1 := by
    intro names warned listed after h hPairwise
    refine hPairwise.imp_of_mem fun ha hb hLess => ?_
    rwa [h.idxOfNth_listed ha, h.idxOfNth_listed hb]
  induction h with
  | start => exact List.Pairwise.nil
  | fresh hBefore _ ih => exact hAppend _ hBefore ih
  | @second names _ _ name hBefore hOld hFirst ih =>
      have hOnce : names.count name = 1 := by
        have hPos := List.count_pos_iff.mpr hOld
        have hNotTwice := mt hBefore.mem_listed_iff.mpr hFirst
        omega
      have hHere : (names ++ [name]).idxOfNth name 1 = names.length := by
        simp [idxOfNth_append, hOnce]
      refine List.pairwise_append.mpr
        ⟨hAppend _ hBefore ih, List.pairwise_singleton _ _, ?_⟩
      intro earlier hEarlier other hOther
      obtain rfl := List.mem_singleton.mp hOther
      rw [hBefore.idxOfNth_listed hEarlier, hHere]
      exact List.idxOfNth_lt_length_of_lt_count
        (hBefore.mem_listed_iff.mp hEarlier)
  | further hBefore _ _ ih => exact hAppend _ hBefore ih

end Repeats

------------------------------------------------------------
-- Warnings and Lists
------------------------------------------------------------

/- The names that the warnings among some events are about. -/
def warnedNames (events : List Event) : List String :=
  (events.filter (·.level = .warn)).filterMap
    fun event => Keyed.get? "name" event.fields

/- The events of a declaration of a name. -/
def declarationEvents
    (known : List (String × Json))
    (d : Decl) : List Event :=
  declaredEvent d ::
    if d.qualifiedName ∈ Keyed.keys known
    then [replacedEvent d.qualifiedName] else []

theorem snd_declareAll_cons
    (known : List (String × Json))
    (d : Decl)
    (rest : List Decl) :
    (declareAll known (d :: rest)).2 =
      declarationEvents known d ++
        (declareAll (Keyed.put d.qualifiedName d.body known) rest).2 := by
  rw [declareAll, declarationEvents]
  by_cases hKnown : d.qualifiedName ∈ Keyed.keys known
  · have hSome : (Keyed.get? d.qualifiedName known).isSome := by
      rw [Option.isSome_iff_ne_none]
      exact fun hNone => Keyed.get?_eq_none_iff.mp hNone hKnown
    simp [hKnown, hSome]
  · simp [hKnown, Keyed.get?_eq_none_iff.mpr hKnown]

/- A further declaration comes after what is known by then. -/
theorem snd_declareAll_concat
    (known : List (String × Json))
    (decls : List Decl)
    (d : Decl) :
    (declareAll known (decls ++ [d])).2 =
      (declareAll known decls).2 ++
        declarationEvents (declareAll known decls).1 d := by
  induction decls generalizing known with
  | nil =>
      rw [List.nil_append, snd_declareAll_cons]
      exact List.append_nil _
  | cons first rest ih =>
      rw [List.cons_append, snd_declareAll_cons, ih, snd_declareAll_cons,
        List.append_assoc]
      rfl

/- The warning of a declaration is that it replaces another one. -/
theorem filter_declarationEvents
    (known : List (String × Json))
    (d : Decl) :
    (declarationEvents known d).filter (·.level = .warn) =
      if d.qualifiedName ∈ Keyed.keys known
      then [replacedEvent d.qualifiedName] else [] := by
  rw [declarationEvents, List.filter_cons_of_neg (by simp [declaredEvent])]
  split <;> rfl

theorem warnedNames_declarationEvents
    (known : List (String × Json))
    (d : Decl) :
    warnedNames (declarationEvents known d) =
      if d.qualifiedName ∈ Keyed.keys known
      then [d.qualifiedName] else [] := by
  rw [warnedNames, filter_declarationEvents]
  split <;> rfl

theorem warnedNames_append (first second : List Event) :
    warnedNames (first ++ second) =
      warnedNames first ++ warnedNames second := by
  simp [warnedNames]

/- Every warning is that a declaration replaces another one. -/
theorem filter_declareAll
    (known : List (String × Json))
    (decls : List Decl) :
    (declareAll known decls).2.filter (·.level = .warn) =
      (warnedNames (declareAll known decls).2).map replacedEvent := by
  induction decls generalizing known with
  | nil => rfl
  | cons d rest ih =>
      rw [snd_declareAll_cons, List.filter_append, ih, warnedNames_append,
        List.map_append, filter_declarationEvents,
        warnedNames_declarationEvents]
      split <;> rfl

/- A further declaration is warned about if its name is known. -/
theorem warnedNames_declareAll_concat
    (decls : List Decl)
    (d : Decl) :
    warnedNames (declareAll [] (decls ++ [d])).2 =
      warnedNames (declareAll [] decls).2 ++
        if d.qualifiedName ∈ decls.map Decl.qualifiedName
        then [d.qualifiedName] else [] := by
  rw [snd_declareAll_concat, warnedNames_append,
    warnedNames_declarationEvents, keys_declareAll]
  simp only [List.mem_eraseDups]

/- A further name is listed if it stands for the second time. -/
theorem repeatsFrom_concat
    (seen reported names : List String)
    (name : String) :
    Schema.repeatsFrom seen reported (names ++ [name]) =
      Schema.repeatsFrom seen reported names ++
        if name ∈ seen ++ names ∧
            name ∉ reported ++ Schema.repeatsFrom seen reported names
        then [name] else [] := by
  induction names generalizing seen reported with
  | nil =>
      simp [Schema.repeatsFrom]
  | cons first rest ih =>
      rw [List.cons_append, Schema.repeatsFrom, Schema.repeatsFrom]
      by_cases hAgain : seen.contains first && !reported.contains first
      · have hSeen : first ∈ seen ∧ first ∉ reported := by
          simpa using hAgain
        rw [if_pos hAgain, if_pos hAgain, ih]
        by_cases hName : name = first
        · simp [hName]
        · simp [hName]
      · rw [if_neg hAgain, if_neg hAgain, ih]
        by_cases hName : name = first
        · simp [hName]
        · simp [hName]

/-
  Declarations are warned about and listed step by step in the
  same way.
-/
theorem repeats_declareAll (decls : List Decl) :
    Repeats (decls.map Decl.qualifiedName)
      (warnedNames (declareAll [] decls).2)
      (Schema.repeatsFrom [] [] (decls.map Decl.qualifiedName)) := by
  induction decls using List.reverseRecOn with
  | nil => exact .start
  | append_singleton decls d ih =>
      rw [warnedNames_declareAll_concat, List.map_append,
        List.map_singleton, repeatsFrom_concat, List.nil_append,
        List.nil_append]
      by_cases hOld : d.qualifiedName ∈ decls.map Decl.qualifiedName
      · by_cases hListed : d.qualifiedName ∈
            Schema.repeatsFrom [] [] (decls.map Decl.qualifiedName)
        · simpa [hOld, hListed] using ih.further hOld hListed
        · simpa [hOld, hListed] using ih.second hOld hListed
      · simpa [hOld] using ih.fresh hOld

------------------------------------------------------------
-- The Report
------------------------------------------------------------

/-
  A name is warned about each time it is declared but the first,
  and these warnings make up the difference between the
  declarations and the bodies by name.  The report lists the
  names of the warnings, each where it comes first: the names
  declared more than once, in the order of their second places.
-/
theorem CheckReport.ofFile_duplicates
    {ε : Type}
    (file : SchemaFile) :
    ∃ (c : RenderContext) (warned : List String),
      (RenderContext.build file.schema :
          Traced ε RenderContext).outcome = .ok c ∧
      (RenderContext.build file.schema :
          Traced ε RenderContext).events.filter (·.level = .warn) =
        warned.map replacedEvent ∧
      (∀ name, warned.count name = file.schema.names.count name - 1) ∧
      warned.length + c.declsByName.length =
        file.schema.decls.length ∧
      (ofFile file).duplicates = file.schema.duplicateNames ∧
      file.schema.duplicateNames = warned.eraseDups ∧
      file.schema.duplicateNames.Nodup ∧
      (∀ name, name ∈ file.schema.duplicateNames ↔
        2 ≤ file.schema.names.count name) ∧
      file.schema.duplicateNames.Pairwise fun a b =>
        file.schema.names.idxOfNth a 1 <
          file.schema.names.idxOfNth b 1 := by
  have hRepeats : Repeats file.schema.names
      (warnedNames (declareAll [] file.schema.decls).2)
      file.schema.duplicateNames :=
    repeats_declareAll file.schema.decls
  have hKeys := congrArg List.length
    (RenderContext.keys_declsByName file.schema)
  have hNames : file.schema.names.length = file.schema.decls.length := by
    simp [Schema.names]
  refine ⟨RenderContext.ofSchema file.schema, _, rfl,
    filter_declareAll [] file.schema.decls, hRepeats.count_warned, ?_,
    rfl, hRepeats.listed_eq, ?_, fun _ => hRepeats.mem_listed_iff,
    hRepeats.listed_ordered⟩
  · rw [← hNames, ← hRepeats.length_warned, ← hKeys, Keyed.keys,
      List.length_map]
  · rw [hRepeats.listed_eq]
    exact nodup_eraseDups _

/- The order is that of second places, not of first ones. -/
example :
    Schema.duplicateNames
      ⟨[⟨["a"], .null⟩, ⟨["b"], .null⟩, ⟨["b"], .null⟩, ⟨["a"], .null⟩],
        []⟩ = ["b", "a"] := by
  decide

end Bindery

import Bindery.Proofs.RenderContext

/-
  This file says which bodies templates see under which names:
  every declared name is where it was declared first, and it has
  the body with which it was declared last.  So the bodies of
  two lists of declarations, one after the other, are those of
  the first list, updated by those of the second one.

  Key definitions include:
    * `DeclaredLast`
    * `HoldsBodies`
    * `Keyed.updated`

  Key theorems include:
    * `holdsBodies_declareAll`
    * `HoldsBodies.unique`
    * `Keyed.putAll_eq_updated`
    * `RenderContext.declsByName_exact`
-/

namespace Bindery

------------------------------------------------------------
-- Updates
------------------------------------------------------------

namespace Keyed

variable {α : Type} {key : String}
variable {entries changes : List (String × α)}

/-
  Entries updated by other ones: a key that is there stays where
  it is and gets the new value if there is one; entries with new
  keys come after that, in their order.
-/
def updated
    (changes entries : List (String × α)) : List (String × α) :=
  entries.map (fun (key, value) =>
    (key, (get? key changes).getD value)) ++
    changes.filter (fun entry => entry.1 ∉ keys entries)

theorem keys_updated (changes entries : List (String × α)) :
    keys (updated changes entries) =
      keys entries ++ (keys changes).filter (· ∉ keys entries) := by
  simp [updated, keys, List.filter_map, Function.comp_def]

/- The key of a changed entry is found as it was. -/
theorem get?_map_getD (key : String) :
    get? key (entries.map fun (key, value) =>
        (key, (get? key changes).getD value)) =
      (get? key entries).map fun value =>
        (get? key changes).getD value := by
  induction entries with
  | nil => rfl
  | cons entry rest ih =>
      rcases entry with ⟨k, v⟩
      by_cases hKey : k = key
      · subst hKey
        simp [get?]
      · simp [get?, hKey, ih]

theorem get?_filter
    {holds : String → Bool}
    (hKey : holds key = true)
    (entries : List (String × α)) :
    get? key (entries.filter fun entry => holds entry.1) =
      get? key entries := by
  induction entries with
  | nil => rfl
  | cons entry rest ih =>
      rcases entry with ⟨k, v⟩
      by_cases hEq : k = key
      · subst hEq
        simp [hKey, get?]
      · by_cases hHolds : holds k = true
        · simp [hHolds, get?, hEq, ih]
        · simp [hHolds, get?, hEq, ih]

/- A changed value counts more than the one that was there. -/
theorem get?_updated
    (key : String)
    (changes entries : List (String × α)) :
    get? key (updated changes entries) =
      (get? key changes).or (get? key entries) := by
  rw [updated, get?_append, get?_map_getD]
  cases hOld : get? key entries with
  | some value => cases get? key changes <;> rfl
  | none =>
      have hNew : decide (key ∉ keys entries) = true := by
        simpa using get?_eq_none_iff.mp hOld
      rw [Option.map_none, Option.none_or, Option.or_none]
      exact @get?_filter _ _ (fun name => decide (name ∉ keys entries))
        hNew changes

/- Putting entries is an update by what they come to on their own. -/
theorem putAll_eq_updated
    (h : (keys entries).Nodup)
    (added : List (String × α)) :
    putAll added entries = updated (putAll added []) entries := by
  -- Both sides have the same keys in the same order and the same
  -- value under each, which is all there is to entries.
  have hKeys : keys (putAll added entries) =
      keys (updated (putAll added []) entries) := by
    rw [keys_putAll, keys_updated, keys_putAll, eraseDups_filter]
    simp [keys]
  have hNodup : (keys (putAll added entries)).Nodup := by
    rw [keys_putAll]
    refine List.nodup_append.mpr ⟨h, nodup_eraseDups _, ?_⟩
    rintro name hOld other hNew rfl
    have hFresh := (List.mem_filter.mp (List.mem_eraseDups.mp hNew)).2
    simp [hOld] at hFresh
  refine eq_of_keys_of_get? hNodup hKeys fun key => ?_
  rw [get?_putAll, get?_updated, get?_putAll, get?, Option.or_none]

end Keyed

------------------------------------------------------------
-- Bodies by Name
------------------------------------------------------------

section Bodies

variable {decls : List Decl} {map other : List (String × Json)}

/- A name is declared with a body, and not again later. -/
def DeclaredLast
    (decls : List Decl)
    (name : String)
    (body : Json) : Prop :=
  ∃ before d after, decls = before ++ d :: after ∧
    d.qualifiedName = name ∧ d.body = body ∧
    ∀ later ∈ after, later.qualifiedName ≠ name

/-
  A map holds the bodies of declarations: under each declared
  name the body with which it was declared last, with the names
  in the order in which they were declared first.
-/
structure HoldsBodies
    (decls : List Decl)
    (map : List (String × Json)) : Prop where
  distinct : (Keyed.keys map).Nodup
  names : ∀ name, name ∈ Keyed.keys map ↔
    ∃ d ∈ decls, d.qualifiedName = name
  ordered : (Keyed.keys map).Pairwise fun name later =>
    (decls.map Decl.qualifiedName).idxOf name <
      (decls.map Decl.qualifiedName).idxOf later
  bodies : ∀ name body, Keyed.get? name map = some body ↔
    DeclaredLast decls name body

theorem get?_declareAll_eq_some_iff
    {name : String}
    {body : Json} :
    Keyed.get? name (declareAll [] decls).1 = some body ↔
      DeclaredLast decls name body := by
  rw [fst_declareAll, Keyed.get?_putAll, Keyed.get?, Option.or_none,
    Keyed.get?_reverse_eq_some_iff]
  constructor
  · rintro ⟨before, after, hSplit, hAfter⟩
    rcases List.map_eq_append_iff.mp hSplit with
      ⟨front, back, rfl, rfl, hBack⟩
    rcases List.map_eq_cons_iff.mp hBack with ⟨d, rest, rfl, hHead, rfl⟩
    rcases Prod.mk.inj hHead with ⟨rfl, rfl⟩
    refine ⟨front, d, rest, rfl, rfl, rfl, fun later hLater hEq => ?_⟩
    apply hAfter
    rw [Keyed.keys, List.map_map]
    exact List.mem_map.mpr ⟨later, hLater, hEq⟩
  · rintro ⟨before, d, after, rfl, rfl, rfl, hAfter⟩
    refine ⟨_, _, List.map_append, ?_⟩
    rw [Keyed.keys, List.map_map]
    rintro hMem
    rcases List.mem_map.mp hMem with ⟨later, hLater, hEq⟩
    exact hAfter later hLater hEq

/- What templates see holds the bodies of the declarations. -/
theorem holdsBodies_declareAll (decls : List Decl) :
    HoldsBodies decls (declareAll [] decls).1 where
  distinct := by
    rw [keys_declareAll]
    exact nodup_eraseDups _
  names name := by
    rw [keys_declareAll, List.mem_eraseDups, List.mem_map]
  ordered := by
    rw [keys_declareAll]
    exact pairwise_idxOf_eraseDups _
  bodies _ _ := get?_declareAll_eq_some_iff

/- Declarations decide which map holds their bodies. -/
theorem HoldsBodies.unique
    (h : HoldsBodies decls map)
    (hOther : HoldsBodies decls other) :
    map = other := by
  have hIrrefl : Std.Irrefl fun name later =>
      (decls.map Decl.qualifiedName).idxOf name <
        (decls.map Decl.qualifiedName).idxOf later :=
    ⟨fun _ => Nat.lt_irrefl _⟩
  have hAntisymm : Std.Antisymm fun name later =>
      (decls.map Decl.qualifiedName).idxOf name <
        (decls.map Decl.qualifiedName).idxOf later :=
    ⟨fun _ _ hLess hGreater => absurd hGreater (Nat.lt_asymm hLess)⟩
  refine Keyed.eq_of_keys_of_get? h.distinct
    (h.ordered.eq_of_mem_iff hOther.ordered fun name => ?_)
    fun name => Option.ext fun body => ?_
  · rw [h.names, hOther.names]
  · rw [h.bodies, hOther.bodies]

/- Declaring two lists is updating what the first one declares. -/
theorem declareAll_append (first second : List Decl) :
    (declareAll [] (first ++ second)).1 =
      Keyed.updated (declareAll [] second).1 (declareAll [] first).1 := by
  have hFirst := fst_declareAll [] first
  have hSecond := fst_declareAll [] second
  have hNodup := (holdsBodies_declareAll first).distinct
  rw [fst_declareAll [] (first ++ second), List.map_append,
    Keyed.putAll_append, ← hFirst, Keyed.putAll_eq_updated hNodup,
    ← hSecond]

/-
  Templates see each declared name once, in the order in which
  the names were declared first, and under it the body with
  which it was declared last; nothing else is like that.  Of two
  lists of declarations one after the other they see what they
  see of the first one, updated by what they see of the second
  one.
-/
theorem RenderContext.declsByName_exact
    {ε : Type}
    (schema first second : Schema)
    (extra : List (String × Json)) :
    (build schema : Traced ε RenderContext).outcome =
        .ok (ofSchema schema) ∧
      (∀ map, HoldsBodies schema.decls map ↔
        map = (ofSchema schema).declsByName) ∧
      (ofSchema ⟨first.decls ++ second.decls, extra⟩).declsByName =
        Keyed.updated (ofSchema second).declsByName
          (ofSchema first).declsByName := by
  have hHolds := holdsBodies_declareAll schema.decls
  refine ⟨rfl, fun map => ⟨fun h => h.unique hHolds, ?_⟩,
    declareAll_append first.decls second.decls⟩
  rintro rfl
  exact hHolds

end Bodies

end Bindery

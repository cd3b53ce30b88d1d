import Bindery.Proofs.Json.Unambiguous
import Bindery.Proofs.Schema.Acceptance

/-
  This file says which objects are schemas and what is kept of
  them: the declarations in their order, and of all other members
  the keys in the order in which they came first, each with the
  value that came last.

  Key definitions include:
    * `Decl.settled`
    * `Declares`

  Key theorems include:
    * `isSchema_iff`
    * `parse_eq_ok_iff`
    * `Schema.parse_accepts`
-/

namespace Bindery

open Json

------------------------------------------------------------
-- Declarations
------------------------------------------------------------

/- A declaration with every key of its body once. -/
def Decl.settled (raw : Decl) : Decl :=
  ⟨raw.name, Json.settle raw.body⟩

/- What is made of all elements of a list, made of each of them. -/
theorem mapM_eq_some_iff
    {α β γ : Type}
    {decode : α → Option β}
    {encode : γ → α}
    {make : γ → β}
    (hDecode : ∀ a b,
      decode a = some b ↔ ∃ raw, a = encode raw ∧ make raw = b)
    {items : List α}
    {values : List β} :
    items.mapM decode = some values ↔
      ∃ raws : List γ, items = raws.map encode ∧
        raws.map make = values := by
  induction items generalizing values with
  | nil =>
      constructor
      · intro h
        exact ⟨[], rfl, by simpa using h⟩
      · rintro ⟨raws, hItems, rfl⟩
        obtain rfl := List.map_eq_nil_iff.mp hItems.symm
        rfl
  | cons item rest ih =>
      simp only [List.mapM_cons, Option.bind_eq_bind,
        Option.bind_eq_some_iff, Option.pure_def, Option.some.injEq,
        hDecode, ih]
      constructor
      · rintro ⟨_, ⟨raw, rfl, rfl⟩, _, ⟨raws, rfl, rfl⟩, rfl⟩
        exact ⟨raw :: raws, rfl, rfl⟩
      · rintro ⟨raws, hItems, rfl⟩
        rcases List.map_eq_cons_iff.mp hItems.symm with
          ⟨raw, raws, rfl, rfl, rfl⟩
        exact ⟨_, ⟨raw, rfl, rfl⟩, _, ⟨raws, rfl, rfl⟩, rfl⟩

theorem listOf?_textOf?_iff {j : Json} {name : List String} :
    listOf? textOf? j = some name ↔ j = .array (name.map Json.text) := by
  rw [listOf?_eq_some_iff]
  have hText (a : Json) (b : String) :
      textOf? a = some b ↔ ∃ raw, a = .text raw ∧ id raw = b := by
    simp [textOf?_eq_some_iff]
  simp [mapM_eq_some_iff hText]

theorem declOf?_iff {j : Json} {decl : Decl} :
    declOf? j = some decl ↔
      ∃ raw : Decl, j = raw.toJson ∧ raw.settled = decl := by
  simp only [declOf?_eq_some_iff, listOf?_textOf?_iff]
  constructor
  · rintro ⟨name, body, rfl, rfl, hBody⟩
    exact ⟨⟨decl.name, body⟩, rfl, by rw [Decl.settled, hBody]⟩
  · rintro ⟨raw, rfl, rfl⟩
    exact ⟨_, raw.body, rfl, rfl, rfl⟩

theorem listOf?_declOf?_iff {j : Json} {decls : List Decl} :
    listOf? declOf? j = some decls ↔ ∃ raws : List Decl,
      j = .array (raws.map Decl.toJson) ∧
        raws.map Decl.settled = decls := by
  rw [listOf?_eq_some_iff]
  constructor
  · rintro ⟨items, rfl, hItems⟩
    rcases (mapM_eq_some_iff fun _ _ => declOf?_iff).mp hItems with
      ⟨raws, rfl, rfl⟩
    exact ⟨raws, rfl, rfl⟩
  · rintro ⟨raws, rfl, rfl⟩
    exact ⟨_, rfl, (mapM_eq_some_iff fun _ _ => declOf?_iff).mpr
      ⟨raws, rfl, rfl⟩⟩

------------------------------------------------------------
-- Members
------------------------------------------------------------

section Members

variable {members : List (String × Json)} {decls : List Decl}
variable {extra : List (String × Json)} {after : PartialSchema}

@[simp] theorem keys_settleMembers (members : List (String × Json)) :
    Keyed.keys (settleMembers members) = Keyed.keys members := by
  simp [settleMembers_eq_map, Keyed.keys]

theorem nextField_decls {raw : Json} :
    nextField ⟨none, extra⟩ "decls" raw = some after ↔
      ∃ raws : List Decl, raw = .array (raws.map Decl.toJson) ∧
        ⟨some (raws.map Decl.settled), extra⟩ = after := by
  simp only [nextField, if_true, Option.map_eq_some_iff,
    listOf?_declOf?_iff]
  constructor
  · rintro ⟨_, ⟨raws, rfl, rfl⟩, rfl⟩
    exact ⟨raws, rfl, rfl⟩
  · rintro ⟨raws, rfl, rfl⟩
    exact ⟨_, ⟨raws, rfl, rfl⟩, rfl⟩

theorem nextField_other
    {fields : PartialSchema}
    {key : String}
    {raw : Json}
    (hKey : key ≠ "decls") :
    nextField fields key raw =
      some ⟨fields.decls,
        Keyed.put key (Json.settle raw) fields.extra⟩ := by
  simp [nextField, hKey]

/- After the declarations there may only be other members. -/
theorem takes_after_decls_iff :
    Takes nextField members ⟨some decls, extra⟩ after ↔
      "decls" ∉ Keyed.keys members ∧
        ⟨some decls, Keyed.putAll (settleMembers members) extra⟩
          = after := by
  induction members generalizing extra with
  | nil => simp [Keyed.keys, settleMembers]
  | cons member rest ih =>
      rcases member with ⟨key, raw⟩
      rw [takes_cons_iff]
      by_cases hKey : key = "decls"
      · simp [hKey, nextField, Keyed.keys]
      · simp only [nextField_other hKey, Option.some.injEq,
          exists_eq_left', ih]
        simp [Keyed.keys, settleMembers, Ne.symm hKey]

/-
  Members of which one holds the declarations, the declarations,
  and the members that are left.
-/
inductive Declares :
    List (String × Json) → List Decl → List (String × Json) → Prop
| here {raws others} :
    "decls" ∉ Keyed.keys others →
    Declares (("decls", .array (raws.map Decl.toJson)) :: others)
      raws others
| there {key raw members raws others} :
    key ≠ "decls" →
    Declares members raws others →
    Declares ((key, raw) :: members) raws ((key, raw) :: others)

/- All but the declarations are put one after the other. -/
theorem takes_decls_iff {later : List (String × Json)} :
    Takes nextField members ⟨none, extra⟩ ⟨some decls, later⟩ ↔
      ∃ raws others, Declares members raws others ∧
        raws.map Decl.settled = decls ∧
          Keyed.putAll (settleMembers others) extra = later := by
  induction members generalizing extra with
  | nil =>
      simp only [takes_nil_iff, PartialSchema.mk.injEq, reduceCtorEq,
        false_and, false_iff]
      rintro ⟨raws, others, ⟨⟩, -⟩
  | cons member rest ih =>
      rcases member with ⟨key, raw⟩
      rw [takes_cons_iff]
      by_cases hKey : key = "decls"
      · subst hKey
        simp only [nextField_decls]
        constructor
        · rintro ⟨_, ⟨raws, rfl, rfl⟩, hTakes⟩
          rcases takes_after_decls_iff.mp hTakes with ⟨hNone, hAfter⟩
          cases hAfter
          exact ⟨raws, rest, Declares.here hNone, rfl, rfl⟩
        · rintro ⟨raws, others, hDeclares, rfl, rfl⟩
          cases hDeclares with
          | here hNone =>
              exact ⟨_, ⟨raws, rfl, rfl⟩,
                takes_after_decls_iff.mpr ⟨hNone, rfl⟩⟩
          | there hNot => exact absurd rfl hNot
      · simp only [nextField_other hKey, Option.some.injEq,
          exists_eq_left', ih]
        constructor
        · rintro ⟨raws, others, hDeclares, rfl, rfl⟩
          exact ⟨raws, _, Declares.there hKey hDeclares, rfl, rfl⟩
        · rintro ⟨raws, _, hDeclares, rfl, rfl⟩
          cases hDeclares with
          | here => exact absurd rfl hKey
          | there _ hDeclares => exact ⟨raws, _, hDeclares, rfl, rfl⟩

theorem isSchema_iff {schema : Schema} :
    IsSchema members schema ↔ ∃ raws others,
      Declares members raws others ∧
        raws.map Decl.settled = schema.decls ∧
          Keyed.putAll (settleMembers others) [] = schema.extra :=
  takes_decls_iff

/- The declarations are there once, and they are pairs. -/
theorem exists_declares_iff {raws : List Decl} :
    (∃ others, Declares members raws others) ↔
      (Keyed.keys members).count "decls" = 1 ∧
        ("decls", .array (raws.map Decl.toJson)) ∈ members := by
  induction members with
  | nil =>
      simp only [List.not_mem_nil, and_false, iff_false]
      rintro ⟨others, ⟨⟩⟩
  | cons member rest ih =>
      rcases member with ⟨key, raw⟩
      have hKeys : Keyed.keys ((key, raw) :: rest) =
          key :: Keyed.keys rest := rfl
      rw [hKeys, List.mem_cons]
      by_cases hKey : key = "decls"
      · subst hKey
        rw [List.count_cons_self, Nat.add_eq_right, List.count_eq_zero]
        constructor
        · rintro ⟨others, hDeclares⟩
          cases hDeclares with
          | here hNone => exact ⟨hNone, Or.inl rfl⟩
          | there hNot => exact absurd rfl hNot
        · rintro ⟨hNone, hFirst | hLater⟩
          · cases hFirst
            exact ⟨rest, Declares.here hNone⟩
          · exact absurd (List.mem_map_of_mem hLater) hNone
      · rw [List.count_cons_of_ne hKey, ← ih.trans (and_congr_right
          fun _ => (or_iff_right fun h => hKey (Prod.mk.inj h).1.symm).symm)]
        constructor
        · rintro ⟨_, hDeclares⟩
          cases hDeclares with
          | here => exact absurd rfl hKey
          | there _ hDeclares => exact ⟨_, hDeclares⟩
        · rintro ⟨others, hDeclares⟩
          exact ⟨_, Declares.there hKey hDeclares⟩

theorem Declares.keys_others
    {raws : List Decl}
    {others : List (String × Json)}
    (h : Declares members raws others) :
    Keyed.keys others = (Keyed.keys members).filter (· ≠ "decls") := by
  induction h with
  | @here raws others hNone =>
      have hKeep (key : String) (hMem : key ∈ Keyed.keys others) :
          decide (key ≠ "decls") = true :=
        decide_eq_true fun hKey => hNone (hKey ▸ hMem)
      exact (List.filter_eq_self.mpr hKeep).symm
  | there hKey _ ih => simpa [Keyed.keys, hKey] using ih

/- Any other key has the same values as before. -/
theorem Declares.get?_others
    {raws : List Decl}
    {others : List (String × Json)}
    {key : String}
    (h : Declares members raws others)
    (hKey : key ≠ "decls") :
    Keyed.get? key (settleMembers others).reverse =
      Keyed.get? key (settleMembers members).reverse := by
  induction h with
  | here =>
      simp [settleMembers, Keyed.get?_append, Keyed.get?, Ne.symm hKey]
  | there _ _ ih =>
      simp [settleMembers, Keyed.get?_append, ih]

end Members

------------------------------------------------------------
-- Schemas
------------------------------------------------------------

section Schemas

variable {text : String} {schema : Schema}
variable {members : List (String × Json)}

theorem parse_eq_ok_iff :
    Schema.parse text = .ok schema ↔ ∃ members raws others,
      IsDocument maxDepth text (.object members) ∧
        Declares members raws others ∧
          raws.map Decl.settled = schema.decls ∧
            Keyed.putAll (settleMembers others) [] = schema.extra := by
  simp only [parse_eq_ok_iff_spelled, isSchema_iff]
  constructor
  · rintro ⟨members, hDocument, raws, others, hSchema⟩
    exact ⟨members, raws, others, hDocument, hSchema⟩
  · rintro ⟨members, raws, others, hDocument, hSchema⟩
    exact ⟨members, hDocument, raws, others, hSchema⟩

theorem keys_putAll_nil (others : List (String × Json)) :
    Keyed.keys (Keyed.putAll (settleMembers others) []) =
      (Keyed.keys others).eraseDups := by
  rw [Keyed.keys_putAll, keys_settleMembers]
  simp [Keyed.keys]

/- The value under a key is what was last written there. -/
theorem mem_extra_iff
    {raws : List Decl}
    {others : List (String × Json)}
    {key : String}
    {value : Json}
    (h : Declares members raws others) :
    (key, value) ∈ Keyed.putAll (settleMembers others) [] ↔
      key ≠ "decls" ∧ ∃ before raw after,
        members = before ++ (key, raw) :: after ∧
          key ∉ Keyed.keys after ∧ Json.settle raw = value := by
  have hKeys := keys_putAll_nil others
  by_cases hKey : key = "decls"
  · subst hKey
    simp only [ne_eq, not_true_eq_false, false_and, iff_false]
    intro hMem
    have hOld : "decls" ∈ Keyed.keys others := by
      have hFound : "decls" ∈ Keyed.keys
          (Keyed.putAll (settleMembers others) []) :=
        List.mem_map.mpr ⟨_, hMem, rfl⟩
      rw [hKeys] at hFound
      simpa using hFound
    rw [h.keys_others] at hOld
    simp at hOld
  · rw [← Keyed.get?_eq_some_iff (hKeys ▸ nodup_eraseDups _),
      Keyed.get?_putAll, h.get?_others hKey]
    simp only [Keyed.get?, Option.or_none,
      Keyed.get?_reverse_eq_some_iff, hKey, ne_eq, not_false_iff,
      true_and, settleMembers_eq_map]
    constructor
    · rintro ⟨before, after, hSplit, hLast⟩
      rcases List.map_eq_append_iff.mp hSplit with
        ⟨front, back, rfl, rfl, hBack⟩
      rcases List.map_eq_cons_iff.mp hBack with
        ⟨⟨other, raw⟩, rest, rfl, hMember, rfl⟩
      cases hMember
      exact ⟨front, raw, rest, rfl, by simpa [Keyed.keys] using hLast,
        rfl⟩
    · rintro ⟨before, raw, after, rfl, hLast, rfl⟩
      exact ⟨_, _, List.map_append, by simpa [Keyed.keys] using hLast⟩

/-
  A text is read as a schema if and only if it spells an object
  that has the key of the declarations exactly once, and an array
  of pairs there whose first elements are arrays of strings.  The
  declarations are these pairs in their order.  All other members
  are kept: every key once, where it came first, with the value
  that came last.
-/
theorem Schema.parse_accepts (text : String) :
    ((∃ schema, Schema.parse text = .ok schema) ↔
      ∃ members, IsDocument maxDepth text (.object members) ∧
        (Keyed.keys members).count "decls" = 1 ∧
        ∃ raws : List Decl,
          ("decls", .array (raws.map Decl.toJson)) ∈ members) ∧
    ∀ schema members,
      Schema.parse text = .ok schema →
      IsDocument maxDepth text (.object members) →
      (∃ raws : List Decl,
        ("decls", .array (raws.map Decl.toJson)) ∈ members ∧
          schema.decls = raws.map Decl.settled) ∧
      "decls" ∉ Keyed.keys schema.extra ∧
      Keyed.keys schema.extra =
        ((Keyed.keys members).filter (· ≠ "decls")).eraseDups ∧
      ∀ key value, (key, value) ∈ schema.extra ↔
        key ≠ "decls" ∧ ∃ before raw after,
          members = before ++ (key, raw) :: after ∧
            key ∉ Keyed.keys after ∧ Json.settle raw = value := by
  constructor
  · constructor
    · rintro ⟨schema, hParse⟩
      rcases parse_eq_ok_iff.mp hParse with
        ⟨members, raws, others, hDocument, hDeclares, -⟩
      rcases exists_declares_iff.mp ⟨others, hDeclares⟩ with
        ⟨hCount, hMem⟩
      exact ⟨members, hDocument, hCount, raws, hMem⟩
    · rintro ⟨members, hDocument, hCount, raws, hMem⟩
      rcases exists_declares_iff.mpr ⟨hCount, hMem⟩ with
        ⟨others, hDeclares⟩
      exact ⟨⟨_, _⟩, parse_eq_ok_iff.mpr
        ⟨members, raws, others, hDocument, hDeclares, rfl, rfl⟩⟩
  · intro schema members hParse hDocument
    rcases parse_eq_ok_iff.mp hParse with
      ⟨members', raws, others, hSpelled, hDeclares, hDecls, hExtra⟩
    obtain rfl : members = members' :=
      Json.object.inj (hDocument.unique hSpelled)
    have hKeys := (keys_putAll_nil others).trans
      (congrArg List.eraseDups hDeclares.keys_others)
    rw [hExtra] at hKeys
    refine ⟨⟨raws, (exists_declares_iff.mp ⟨_, hDeclares⟩).2,
      hDecls.symm⟩, ?_, hKeys, ?_⟩
    · rw [hKeys]
      simp
    · intro key value
      rw [← hExtra]
      exact mem_extra_iff hDeclares

/- The declarations may stand among members that are repeated. -/
theorem Schema.parse_accepts_repeated :
    ∃ schema members,
      Schema.parse "\x7b\"b\": 1, \"decls\": [], \"b\": 2\x7d"
        = .ok schema ∧
      IsDocument maxDepth "\x7b\"b\": 1, \"decls\": [], \"b\": 2\x7d"
        (.object members) ∧
      Keyed.keys schema.extra =
        ((Keyed.keys members).filter (· ≠ "decls")).eraseDups := by
  have hRead : (match Schema.parse
      "\x7b\"b\": 1, \"decls\": [], \"b\": 2\x7d" with
    | .ok _ => true
    | .error _ => false) = true := by
    decide +kernel
  cases hParse : Schema.parse
      "\x7b\"b\": 1, \"decls\": [], \"b\": 2\x7d" with
  | error e => simp [hParse] at hRead
  | ok schema =>
      rcases parse_eq_ok_iff.mp hParse with ⟨members, -, -, hDocument, -⟩
      rcases (Schema.parse_accepts _).2 _ _ hParse hDocument with
        ⟨-, -, hKeys, -⟩
      exact ⟨schema, members, rfl, hDocument, hKeys⟩

end Schemas

end Bindery

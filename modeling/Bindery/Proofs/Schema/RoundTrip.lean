import Bindery.Proofs.Json.Writing
import Bindery.Proofs.Schema.Contents

/-
  This file says that a schema which was read and is written
  again is read back as it was, if none of its numbers is
  floating-point.

  Key theorems include:
    * `settle_toJson`
    * `isCanonical_toJson`
    * `Schema.parse_compact`
-/

namespace Bindery

open Json

section Written

variable {text : String} {schema : Schema}

theorem settle_array_text (name : List String) :
    Json.settle (.array (name.map Json.text)) =
      .array (name.map Json.text) := by
  rw [settle_array, List.map_map]
  rfl

/- A pair is settled by settling its body. -/
theorem settle_toJson (raw : Decl) :
    Json.settle raw.toJson = raw.settled.toJson := by
  unfold Decl.toJson
  rw [settle_array]
  simp only [List.map_cons, List.map_nil, settle_array_text]
  rfl

theorem settle_decls (raws : List Decl) :
    Json.settle (.array (raws.map Decl.toJson)) =
      .array ((raws.map Decl.settled).map Decl.toJson) := by
  rw [settle_array, List.map_map, List.map_map]
  congr 1
  exact List.map_congr_left fun raw _ => settle_toJson raw

theorem Decl.toJson_injective : Function.Injective Decl.toJson := by
  rintro ⟨name, body⟩ ⟨name', body'⟩ h
  have hText : Function.Injective Json.text := fun _ _ h =>
    Json.text.inj h
  simp only [Decl.toJson, Json.array.injEq, List.cons.injEq,
    and_true] at h
  rw [List.map_injective_iff.mpr hText h.1, h.2]

/- Every member that is written comes from a member that was read. -/
theorem exists_member_of_parse
    (hParse : Schema.parse text = .ok schema) :
    ∃ members, IsDocument maxDepth text (.object members) ∧
      (Keyed.keys (("decls", .array (schema.decls.map Decl.toJson)) ::
        schema.extra)).Nodup ∧
      ∀ member ∈ ("decls", .array (schema.decls.map Decl.toJson)) ::
          schema.extra,
        ∃ raw, (member.1, raw) ∈ members ∧ Json.settle raw = member.2 := by
  rcases parse_eq_ok_iff.mp hParse with
    ⟨members, raws, others, hDocument, hDeclares, hDecls, hExtra⟩
  have hKeys := keys_putAll_nil others
  rw [hExtra] at hKeys
  refine ⟨members, hDocument, ?_, fun member hMember => ?_⟩
  · have hNew : "decls" ∉ Keyed.keys schema.extra := by
      rw [hKeys, hDeclares.keys_others]
      simp
    have hNodup : (Keyed.keys schema.extra).Nodup := by
      rw [hKeys]
      exact nodup_eraseDups _
    exact List.nodup_cons.mpr ⟨hNew, hNodup⟩
  · rcases List.mem_cons.mp hMember with rfl | hOther
    · refine ⟨_, (exists_declares_iff.mp ⟨_, hDeclares⟩).2, ?_⟩
      rw [settle_decls, hDecls]
    · rw [← hExtra] at hOther
      rcases (mem_extra_iff hDeclares).mp hOther with
        ⟨-, before, raw, after, rfl, -, hSettle⟩
      exact ⟨raw, by simp, hSettle⟩

/- A schema that was read is canonical if its numbers are integers. -/
theorem isCanonical_toJson
    (hParse : Schema.parse text = .ok schema)
    (hIntegral : isIntegral schema.toJson = true) :
    IsCanonical maxDepth schema.toJson := by
  rcases exists_member_of_parse hParse with
    ⟨members, ⟨rest, hValue, -⟩, hKeys, hMembers⟩
  rcases value_object_iff.mp hValue with ⟨u, -, hSpelled⟩
  refine ⟨hKeys, fun member hMember => ?_⟩
  rcases hMembers member hMember with ⟨raw, hRaw, hSettle⟩
  rcases hSpelled.exists_spelled _ hRaw with ⟨v, w, hMemberSpelled⟩
  rcases hMemberSpelled.exists_value with ⟨x, y, hRawValue⟩
  have hValueIntegral :=
    isIntegral_object_iff.mp hIntegral member hMember
  rw [← hSettle] at hValueIntegral ⊢
  exact isCanonical_settle hRawValue hValueIntegral

/-
  A schema that is canonical is read back from its own text.
-/
theorem parse_compact_of_isCanonical
    (h : IsCanonical maxDepth schema.toJson) :
    Schema.parse schema.toJson.compact = .ok schema := by
  rcases List.nodup_cons.mp h.1 with ⟨hNew, hNodup⟩
  have hSettled (member : String × Json) (hMem : member ∈
      ("decls", .array (schema.decls.map Decl.toJson)) ::
        schema.extra) :
      Json.settle member.2 = member.2 :=
    settle_eq_of_isCanonical (h.2 member hMem)
  refine parse_eq_ok_iff.mpr ⟨_, schema.decls, schema.extra,
    isDocument_compact h, Declares.here hNew, ?_, ?_⟩
  · have hDecls := hSettled _ List.mem_cons_self
    rw [settle_decls] at hDecls
    exact List.map_injective_iff.mpr Decl.toJson_injective
      (Json.array.inj hDecls)
  · have hSame (member : String × Json)
        (hMem : member ∈ schema.extra) :
        (member.1, Json.settle member.2) = id member :=
      Prod.ext rfl (hSettled member (List.mem_cons_of_mem _ hMem))
    rw [settleMembers_eq_map, List.map_congr_left hSame, List.map_id,
      Keyed.putAll_of_nodup hNodup]

/-
  A schema that was read is read back from the text that is
  written of it, and is written as that text again, if none of its
  numbers is floating-point.
-/
theorem Schema.parse_compact
    (hParse : Schema.parse text = .ok schema)
    (hIntegral : isIntegral schema.toJson = true) :
    Schema.parse schema.toJson.compact = .ok schema ∧
      ∀ again, Schema.parse schema.toJson.compact = .ok again →
        again.toJson.compact = schema.toJson.compact := by
  have hBack := parse_compact_of_isCanonical
    (isCanonical_toJson hParse hIntegral)
  refine ⟨hBack, fun again hAgain => ?_⟩
  rw [Except.ok.inj (hAgain.symm.trans hBack)]

/- A repeated key is written once. -/
theorem Schema.parse_compact_repeated :
    ∃ schema,
      Schema.parse
          "\x7b\"b\": 1, \"decls\": [[[\"a\"], -2]], \"b\": 3\x7d"
        = .ok schema ∧
      isIntegral schema.toJson = true ∧
      Schema.parse schema.toJson.compact = .ok schema := by
  have hRead : (match Schema.parse
      "\x7b\"b\": 1, \"decls\": [[[\"a\"], -2]], \"b\": 3\x7d" with
    | .ok schema => isIntegral schema.toJson
    | .error _ => false) = true := by
    decide +kernel
  cases hParse : Schema.parse
      "\x7b\"b\": 1, \"decls\": [[[\"a\"], -2]], \"b\": 3\x7d" with
  | error e => simp [hParse] at hRead
  | ok schema =>
      rw [hParse] at hRead
      exact ⟨schema, rfl, hRead, (Schema.parse_compact hParse hRead).1⟩

end Written

end Bindery

import Bindery.Proofs.Json.ValueAcceptance

/-
  This file is about documents that are settled and whose numbers
  are integers: documents that are read are of this kind, if no
  number of them is floating-point.

  Key definitions include:
    * `IsCanonical`
    * `isIntegral`

  Key theorems include:
    * `settle_eq_of_isCanonical`
    * `isCanonical_settle`
-/

namespace Bindery.Json

variable {s t : List Char}

/-
  A document that is spelled by its own text: its numbers are
  integers that fit and every key is there once.  The first
  argument says how deep lists and objects may be nested in it.
-/
def IsCanonical : Nat → Json → Prop
| _, .null => True
| _, .bool _ => True
| _, .int n => fits n = true
| _, .float _ => False
| _, .text _ => True
| 0, .array _ => False
| depth + 1, .array items => ∀ item ∈ items, IsCanonical depth item
| 0, .object _ => False
| depth + 1, .object members =>
    (Keyed.keys members).Nodup ∧
      ∀ member ∈ members, IsCanonical depth member.2

section Scalars

variable {depth : Nat}

@[simp] theorem isCanonical_null : IsCanonical depth .null := by
  cases depth <;> trivial

@[simp] theorem isCanonical_bool {b : Bool} :
    IsCanonical depth (.bool b) := by
  cases depth <;> trivial

@[simp] theorem isCanonical_text {value : String} :
    IsCanonical depth (.text value) := by
  cases depth <;> trivial

@[simp] theorem isCanonical_int_iff {n : Int} :
    IsCanonical depth (.int n) ↔ fits n = true := by
  cases depth <;> exact Iff.rfl

@[simp] theorem not_isCanonical_float {x : Float} :
    ¬ IsCanonical depth (.float x) := by
  cases depth <;> exact id

end Scalars

/- Nothing is left to settle in a canonical document. -/
theorem settle_eq_of_isCanonical
    {depth : Nat}
    {j : Json}
    (h : IsCanonical depth j) :
    settle j = j := by
  induction depth generalizing j with
  | zero =>
      cases j with
      | array items => exact h.elim
      | object members => exact h.elim
      | null => rfl
      | bool b => rfl
      | int n => rfl
      | float x => rfl
      | text value => rfl
  | succ depth ih =>
      cases j with
      | array items =>
          have hItems : items.map settle = items := by
            rw [List.map_congr_left fun item hItem => ih (h item hItem),
              List.map_id']
          rw [settle_array, hItems]
      | object members =>
          rcases h with ⟨hKeys, hValues⟩
          have hMembers : settleMembers members = members := by
            have hSame (member : String × Json) (h : member ∈ members) :
                (member.1, settle member.2) = id member :=
              Prod.ext rfl (ih (hValues member h))
            rw [settleMembers_eq_map, List.map_congr_left hSame,
              List.map_id]
          rw [settle_object, hMembers, Keyed.putAll_of_nodup hKeys]
      | null => rfl
      | bool b => rfl
      | int n => rfl
      | float x => rfl
      | text value => rfl

------------------------------------------------------------
-- Documents that were read
------------------------------------------------------------

mutual

/- Whether all numbers of a document are integers. -/
def isIntegral : Json → Bool
| .float _ => false
| .array items => areIntegral items
| .object members => membersIntegral members
| _ => true

/- Whether all numbers of the elements of an array are integers. -/
def areIntegral : List Json → Bool
| [] => true
| item :: rest => isIntegral item && areIntegral rest

/- Whether all numbers of the members of an object are integers. -/
def membersIntegral : List (String × Json) → Bool
| [] => true
| (_, value) :: rest => isIntegral value && membersIntegral rest

end

theorem isIntegral_array_iff {items : List Json} :
    isIntegral (.array items) = true ↔
      ∀ item ∈ items, isIntegral item = true := by
  rw [show isIntegral (.array items) = areIntegral items by
    simp only [isIntegral]]
  induction items with
  | nil => simp [areIntegral]
  | cons item rest ih => simp [areIntegral, ih]

theorem isIntegral_object_iff {members : List (String × Json)} :
    isIntegral (.object members) = true ↔
      ∀ member ∈ members, isIntegral member.2 = true := by
  rw [show isIntegral (.object members) = membersIntegral members by
    simp only [isIntegral]]
  induction members with
  | nil => simp [membersIntegral]
  | cons member rest ih => simp [membersIntegral, ih]

theorem isCanonical_scalar
    {depth : Nat}
    {j : Json}
    (h : Scalar j s t)
    (hIntegral : isIntegral j = true) :
    IsCanonical depth j := by
  cases h with
  | null => exact isCanonical_null
  | yes => exact isCanonical_bool
  | no => exact isCanonical_bool
  | number h =>
      cases h.isNumber with
      | int hFits => exact isCanonical_int_iff.mpr hFits
      | float => simp [isIntegral] at hIntegral
  | text => exact isCanonical_text

/- A document that was read is canonical, if its numbers are integers. -/
theorem isCanonical_settle
    {depth : Nat}
    {raw : Json}
    (h : Value depth raw s t)
    (hIntegral : isIntegral (settle raw) = true) :
    IsCanonical depth (settle raw) := by
  induction depth generalizing raw s t with
  | zero =>
      have hScalar : Scalar raw s t := h
      rw [hScalar.settle_eq] at hIntegral ⊢
      exact isCanonical_scalar hScalar hIntegral
  | succ depth ih =>
      cases h with
      | scalar h =>
          rw [h.settle_eq] at hIntegral ⊢
          exact isCanonical_scalar h hIntegral
      | array h =>
          rw [settle_array] at hIntegral ⊢
          intro item hItem
          have hIntegral := isIntegral_array_iff.mp hIntegral item hItem
          rcases List.mem_map.mp hItem with ⟨raw, hRaw, rfl⟩
          rcases h.exists_spelled raw hRaw with ⟨u, v, hValue⟩
          exact ih hValue hIntegral
      | object h =>
          rw [settle_object] at hIntegral ⊢
          refine ⟨?_, fun member hMember => ?_⟩
          · rw [Keyed.keys_putAll]
            simpa [Keyed.keys] using nodup_eraseDups _
          · have hIntegral :=
              isIntegral_object_iff.mp hIntegral member hMember
            have hPut := (Keyed.mem_putAll hMember).resolve_right
              List.not_mem_nil
            rw [settleMembers_eq_map] at hPut
            rcases List.mem_map.mp hPut with ⟨raw, hRaw, rfl⟩
            rcases h.exists_spelled raw hRaw with ⟨u, v, hSpelled⟩
            rcases hSpelled.exists_value with ⟨w, x, hValue⟩
            exact ih hValue hIntegral

end Bindery.Json

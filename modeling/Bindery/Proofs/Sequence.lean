import Mathlib.Data.List.Forall2

/-
  This file is about lists that are gone through in order until
  the first item that something is wrong with.

  Key theorems include:
    * `exists_first_cons_iff`
    * `mapM_eq_some_iff_forall₂`
    * `mapM_eq_ok_iff`
    * `exists_of_mem_mapM`
    * `mapM_eq_error_iff`
-/

namespace Bindery

/-
  The first item with something wrong is the first item of all,
  or nothing is wrong with that and it is among the others.
-/
theorem exists_first_cons_iff
    {α : Type}
    {fine wrong : α → Prop}
    {first : α}
    {rest : List α} :
    (∃ before item after, first :: rest = before ++ item :: after ∧
        (∀ earlier ∈ before, fine earlier) ∧ wrong item) ↔
      wrong first ∨ fine first ∧
        ∃ before item after, rest = before ++ item :: after ∧
          (∀ earlier ∈ before, fine earlier) ∧ wrong item := by
  constructor
  · rintro ⟨before, item, after, hSplit, hBefore, hWrong⟩
    rcases List.cons_eq_append_iff.mp hSplit with
      ⟨-, hHead⟩ | ⟨front, rfl, hRest⟩
    · obtain rfl := (List.cons.inj hHead).1
      exact Or.inl hWrong
    · rcases List.forall_mem_cons.mp hBefore with ⟨hFirst, hFront⟩
      exact Or.inr ⟨hFirst, front, item, after, hRest, hFront, hWrong⟩
  · rintro (hWrong | ⟨hFirst, before, item, after, rfl, hBefore, hWrong⟩)
    · exact ⟨[], first, rest, rfl, by simp, hWrong⟩
    · exact ⟨first :: before, item, after, rfl,
        List.forall_mem_cons.mpr ⟨hFirst, hBefore⟩, hWrong⟩

/- The same is made of items exactly if it is of each one. -/
theorem mapM_eq_some_iff_forall₂
    {α β : Type}
    {make : α → Option β}
    {items : List α}
    {made : List β} :
    items.mapM make = some made ↔
      List.Forall₂ (fun item b => make item = some b) items made := by
  induction items generalizing made with
  | nil =>
      rw [List.mapM_nil, List.forall₂_nil_left_iff]
      exact ⟨fun h => (Option.some.inj h).symm, fun h => h ▸ rfl⟩
  | cons first rest ih =>
      simp only [List.mapM_cons, Option.bind_eq_bind,
        Option.bind_eq_some_iff, Option.pure_def, Option.some.injEq,
        List.forall₂_cons_left_iff, ih]
      constructor
      · rintro ⟨b, hFirst, others, hRest, rfl⟩
        exact ⟨b, others, hFirst, hRest, rfl⟩
      · rintro ⟨b, others, hFirst, hRest, rfl⟩
        exact ⟨b, hFirst, others, hRest, rfl⟩

theorem exists_mapM_eq_some
    {α β : Type}
    {make : α → Option β}
    {items : List α}
    (h : ∀ item ∈ items, ∃ b, make item = some b) :
    ∃ made, items.mapM make = some made := by
  induction items with
  | nil => exact ⟨[], rfl⟩
  | cons first rest ih =>
      rcases List.forall_mem_cons.mp h with ⟨⟨b, hFirst⟩, hRest⟩
      rcases ih hRest with ⟨others, hOthers⟩
      exact ⟨b :: others, by simp [hFirst, hOthers]⟩

/- Related items have the same things made of them. -/
theorem map_eq_of_forall₂
    {α β γ : Type}
    {related : α → β → Prop}
    {make : α → γ}
    {other : β → γ}
    {items : List α}
    {others : List β}
    (h : List.Forall₂ related items others)
    (hMake : ∀ a b, related a b → make a = other b) :
    items.map make = others.map other := by
  rw [← List.forall₂_eq_eq_eq, List.forall₂_map_left_iff,
    List.forall₂_map_right_iff]
  exact h.imp hMake

section Making

variable {ε α β : Type} {make : α → Except ε β}
variable {items : List α} {made : List β} {e : ε}

/- Something is made of all items exactly if it is of each one. -/
theorem mapM_eq_ok_iff :
    items.mapM make = .ok made ↔
      List.Forall₂ (fun item b => make item = .ok b) items made := by
  induction items generalizing made with
  | nil =>
      rw [List.mapM_nil, List.forall₂_nil_left_iff]
      exact ⟨fun h => (Except.ok.inj h).symm, fun h => h ▸ rfl⟩
  | cons first rest ih =>
      rw [List.mapM_cons, List.forall₂_cons_left_iff]
      cases hFirst : make first with
      | error cause => simp [Bind.bind, Except.bind]
      | ok b =>
          cases hRest : rest.mapM make with
          | error cause =>
              simp [Bind.bind, Except.bind, ← ih, hRest]
          | ok others =>
              simp [Bind.bind, Except.bind, Pure.pure, Except.pure,
                ← ih, hRest, eq_comm]

/- What is made of an item is among what is made of all. -/
theorem exists_of_mem_mapM
    {item : α}
    (h : items.mapM make = .ok made)
    (hItem : item ∈ items) :
    ∃ b ∈ made, make item = .ok b := by
  have hAll := mapM_eq_ok_iff.mp h
  induction hAll with
  | nil => exact absurd hItem List.not_mem_nil
  | cons hFirst hRest ih =>
      rcases List.mem_cons.mp hItem with rfl | hTail
      · exact ⟨_, List.mem_cons_self, hFirst⟩
      · rcases ih (mapM_eq_ok_iff.mpr hRest) hTail with ⟨b, hb, hMake⟩
        exact ⟨b, List.mem_cons_of_mem _ hb, hMake⟩

/- The first item of which nothing can be made is what fails. -/
theorem mapM_eq_error_iff :
    items.mapM make = .error e ↔
      ∃ before item after, items = before ++ item :: after ∧
        (∀ earlier ∈ before, ∃ b, make earlier = .ok b) ∧
        make item = .error e := by
  induction items with
  | nil => simp [Pure.pure, Except.pure]
  | cons first rest ih =>
      rw [List.mapM_cons, exists_first_cons_iff, ← ih]
      cases hFirst : make first with
      | error cause => simp [Bind.bind, Except.bind]
      | ok b =>
          cases hRest : rest.mapM make with
          | error cause => simp [Bind.bind, Except.bind]
          | ok others =>
              simp [Bind.bind, Except.bind, Pure.pure, Except.pure]

end Making

end Bindery

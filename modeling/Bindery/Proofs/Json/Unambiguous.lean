import Bindery.Proofs.Json.ValueAcceptance

/-
  This file says that a text spells one document at most.

  Key definitions include:
    * `Unambiguous`

  Key theorems include:
    * `Accepts.unambiguous`
    * `unambiguous_elements`
    * `unambiguous_value`
    * `IsDocument.unique`
-/

namespace Bindery.Json

variable {α : Type}

/- A text starts with one value at most, and it ends in one place. -/
def Unambiguous (spelling : Spelling α) : Prop :=
  ∀ ⦃a b s t u⦄, spelling a s t → spelling b s u → a = b ∧ t = u

/- A reader has one result. -/
theorem Accepts.unambiguous
    {read : Reader α}
    {spelling : Spelling α}
    (hRead : Accepts read spelling) :
    Unambiguous spelling := by
  intro a b s t u hFirst hSecond
  rcases (hRead ⟨s, 1, 0⟩ a t).mpr hFirst with ⟨c, hOk, rfl⟩
  rcases (hRead ⟨s, 1, 0⟩ b u).mpr hSecond with ⟨d, hOther, rfl⟩
  cases hOk.symm.trans hOther
  exact ⟨rfl, rfl⟩

------------------------------------------------------------
-- Scalars
------------------------------------------------------------

theorem unambiguous_quoted : Unambiguous Quoted := by
  intro chars others s t u hFirst hSecond
  rcases accepts_readString.unambiguous
    ⟨chars, hFirst, rfl⟩ ⟨others, hSecond, rfl⟩ with ⟨hText, rfl⟩
  exact ⟨String.ofList_injective hText, rfl⟩

theorem unambiguous_scalar : Unambiguous Scalar := by
  intro j k s t u hFirst hSecond
  cases hFirst with
  | null =>
      rcases scalar_n_iff.mp hSecond with ⟨hRest, rfl⟩
      exact ⟨rfl, by simpa using hRest⟩
  | yes =>
      rcases scalar_t_iff.mp hSecond with ⟨hRest, rfl⟩
      exact ⟨rfl, by simpa using hRest⟩
  | no =>
      rcases scalar_f_iff.mp hSecond with ⟨hRest, rfl⟩
      exact ⟨rfl, by simpa using hRest⟩
  | text hChars =>
      rcases scalar_quote_iff.mp hSecond with ⟨others, hOthers, rfl⟩
      rcases unambiguous_quoted hChars hOthers with ⟨rfl, rfl⟩
      exact ⟨rfl, rfl⟩
  | number hNumber =>
      cases hNumber with
      | positive hFirst =>
          cases s with
          | nil => exact absurd hFirst not_unsigned_nil
          | cons d rest =>
              rw [scalar_digit_iff hFirst.isDigit_head] at hSecond
              exact (accepts_readNumber true).unambiguous hFirst hSecond
      | negative hFirst =>
          rw [scalar_minus_iff] at hSecond
          exact (accepts_readNumber false).unambiguous hFirst hSecond

------------------------------------------------------------
-- Lists and Objects
------------------------------------------------------------

section Lists

variable {close : Char} {element : Spelling α}

theorem unambiguous_moreElements
    (hClose : close ≠ ',')
    (hElement : Unambiguous element) :
    Unambiguous (MoreElements close element) := by
  intro items others s t u hFirst hSecond
  induction hFirst generalizing others u with
  | close hEnd =>
      cases hSecond with
      | close hOther =>
          exact ⟨rfl, (List.cons.inj (hEnd.symm.trans hOther)).2⟩
      | comma hComma =>
          exact absurd (List.cons.inj (hEnd.symm.trans hComma)).1 hClose
  | comma hComma hItem _ ih =>
      cases hSecond with
      | close hEnd =>
          exact absurd (List.cons.inj (hEnd.symm.trans hComma)).1 hClose
      | comma hOther hOtherItem hRest =>
          obtain rfl := (List.cons.inj (hComma.symm.trans hOther)).2
          rcases hElement hItem hOtherItem with ⟨rfl, rfl⟩
          rcases ih hRest with ⟨rfl, rfl⟩
          exact ⟨rfl, rfl⟩

theorem unambiguous_elements
    (hClose : close ≠ ',')
    (hHead : ∀ {a x s t}, element a (x :: s) t → x ≠ close)
    (hElement : Unambiguous element) :
    Unambiguous (Elements close element) := by
  intro items others s t u hFirst hSecond
  cases hFirst with
  | empty hEnd =>
      cases hSecond with
      | empty hOther =>
          exact ⟨rfl, (List.cons.inj (hEnd.symm.trans hOther)).2⟩
      | cons hItem _ =>
          rw [hEnd] at hItem
          exact absurd rfl (hHead hItem)
  | cons hItem hRest =>
      cases hSecond with
      | empty hEnd =>
          rw [hEnd] at hItem
          exact absurd rfl (hHead hItem)
      | cons hOtherItem hOtherRest =>
          rcases hElement hItem hOtherItem with ⟨rfl, rfl⟩
          rcases unambiguous_moreElements hClose hElement hRest
            hOtherRest with ⟨rfl, rfl⟩
          exact ⟨rfl, rfl⟩

theorem unambiguous_member (hElement : Unambiguous element) :
    Unambiguous (Member element) := by
  intro member other s t u hFirst hSecond
  cases hFirst with
  | mk hChars hValue =>
      cases hSecond with
      | mk hOtherChars hOtherValue =>
          rcases unambiguous_quoted hChars hOtherChars with ⟨rfl, rfl⟩
          cases hValue with
          | mk hColon hValue =>
              cases hOtherValue with
              | mk hOtherColon hOtherValue =>
                  obtain rfl :=
                    (List.cons.inj (hColon.symm.trans hOtherColon)).2
                  rcases hElement hValue hOtherValue with ⟨rfl, rfl⟩
                  exact ⟨rfl, rfl⟩

theorem Member.head
    {member : String × α}
    {x : Char}
    {s t : List Char}
    (h : Member element member (x :: s) t) :
    x = '"' := by
  cases h with
  | mk => rfl

end Lists

------------------------------------------------------------
-- Documents
------------------------------------------------------------

theorem unambiguous_array
    {depth : Nat}
    (hValue : Unambiguous (Value depth)) :
    Unambiguous (Elements ']' (Value depth)) :=
  unambiguous_elements (by decide) (separable_value depth).head_ne hValue

theorem unambiguous_object
    {depth : Nat}
    (hValue : Unambiguous (Value depth)) :
    Unambiguous (Elements '}' (Member (Value depth))) := by
  refine unambiguous_elements (by decide) ?_ (unambiguous_member hValue)
  intro member x s t hMember
  rw [hMember.head]
  decide

theorem Scalar.head?_ne
    {j : Json}
    {s t : List Char}
    (h : Scalar j s t) :
    s.head? ≠ some '[' ∧ s.head? ≠ some '{' := by
  cases s with
  | nil => simp
  | cons x rest =>
      have hHead := h.head
      constructor
      · rintro hBracket
        obtain rfl : x = '[' := by simpa using hBracket
        exact absurd hHead (by decide)
      · rintro hBrace
        obtain rfl : x = '{' := by simpa using hBrace
        exact absurd hHead (by decide)

theorem unambiguous_value (depth : Nat) : Unambiguous (Value depth) := by
  induction depth with
  | zero => exact unambiguous_scalar
  | succ depth ih =>
      intro j k s t u hFirst hSecond
      cases hFirst with
      | scalar hFirst =>
          rcases hFirst.head?_ne with ⟨hBracket, hBrace⟩
          rw [value_scalar_iff hBracket hBrace] at hSecond
          exact unambiguous_scalar hFirst hSecond
      | array hFirst =>
          rcases value_bracket_iff.mp hSecond with ⟨items, hItems, rfl⟩
          rcases unambiguous_array ih hFirst hItems with ⟨rfl, rfl⟩
          exact ⟨rfl, rfl⟩
      | object hFirst =>
          rcases value_brace_iff.mp hSecond with ⟨items, hItems, rfl⟩
          rcases unambiguous_object ih hFirst hItems with ⟨rfl, rfl⟩
          exact ⟨rfl, rfl⟩

/- A text spells one document at most. -/
theorem IsDocument.unique
    {depth : Nat}
    {text : String}
    {j k : Json}
    (hFirst : IsDocument depth text j)
    (hSecond : IsDocument depth text k) :
    j = k := by
  rcases hFirst with ⟨t, hFirst, -⟩
  rcases hSecond with ⟨u, hSecond, -⟩
  exact (unambiguous_value depth hFirst hSecond).1

end Bindery.Json

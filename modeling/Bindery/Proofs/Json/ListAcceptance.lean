import Bindery.Json.Reader
import Bindery.Proofs.Json.Acceptance

/-
  This file says that lists are read as the grammar has them,
  whatever is read of an element.

  Key definitions include:
    * `Spaced`
    * `Decoded`
    * `Separable`

  Key theorems include:
    * `elements_decoded_iff`
    * `accepts_readSequence`
-/

namespace Bindery.Json

variable {α β : Type}

------------------------------------------------------------
-- Spellings of Lists
------------------------------------------------------------

/- A spelling that may have blanks before it. -/
def Spaced (spelling : Spelling α) : Spelling α := fun a s t =>
  spelling a (afterGap s) t

/- A spelling of what is made of spelled values, if it can be made. -/
def Decoded
    (decode : β → Option α)
    (spelling : Spelling β) : Spelling α := fun a s t =>
  ∃ b, spelling b s t ∧ decode b = some a

/-
  Spellings of elements which the end of a list can be told from
  and which are not empty.
-/
structure Separable
    (close : Char)
    (spelling : Spelling α) : Prop where
  length_lt {a s t} : spelling a s t → t.length < s.length
  head_ne {a x s t} : spelling a (x :: s) t → x ≠ close

section Elements

variable {close : Char} {element : Spelling α} {s t : List Char}

@[simp] theorem moreElements_nil_iff :
    MoreElements close element [] s t ↔ afterGap s = close :: t := by
  constructor
  · intro h
    cases h with
    | close hClose => exact hClose
  · exact MoreElements.close

@[simp] theorem moreElements_cons_iff
    {a : α}
    {rest : List α} :
    MoreElements close element (a :: rest) s t ↔
      ∃ u, afterGap s = ',' :: u ∧ ∃ v, element a (afterGap u) v ∧
        MoreElements close element rest v t := by
  constructor
  · intro h
    cases h with
    | comma hComma hElement hRest =>
        exact ⟨_, hComma, _, hElement, hRest⟩
  · rintro ⟨u, hComma, v, hElement, hRest⟩
    exact MoreElements.comma hComma hElement hRest

@[simp] theorem elements_nil_iff :
    Elements close element [] s t ↔ afterGap s = close :: t := by
  constructor
  · intro h
    cases h with
    | empty hClose => exact hClose
  · exact Elements.empty

@[simp] theorem elements_cons_iff
    {a : α}
    {rest : List α} :
    Elements close element (a :: rest) s t ↔
      ∃ u, element a (afterGap s) u ∧
        MoreElements close element rest u t := by
  constructor
  · intro h
    cases h with
    | cons hElement hRest => exact ⟨_, hElement, hRest⟩
  · rintro ⟨u, hElement, hRest⟩
    exact Elements.cons hElement hRest

theorem length_lt_of_afterGap_eq
    {x : Char}
    (h : afterGap s = x :: t) :
    t.length < s.length := by
  have hLength := length_afterGap_le s
  rw [h] at hLength
  exact hLength

theorem MoreElements.length_lt
    {items : List α}
    (hElement : ∀ {a s t}, element a s t → t.length < s.length)
    (h : MoreElements close element items s t) :
    t.length < s.length := by
  induction h with
  | close hClose => exact length_lt_of_afterGap_eq hClose
  | @comma a rest s u v t hComma hItem _ ih =>
      have hFirst := length_lt_of_afterGap_eq hComma
      have hGap := length_afterGap_le u
      have hSecond := hElement hItem
      omega

theorem Elements.length_lt
    {items : List α}
    (hElement : ∀ {a s t}, element a s t → t.length < s.length)
    (h : Elements close element items s t) :
    t.length < s.length := by
  cases h with
  | empty hClose => exact length_lt_of_afterGap_eq hClose
  | cons hItem hRest =>
      have hGap := length_afterGap_le s
      have hFirst := hElement hItem
      have hSecond := hRest.length_lt hElement
      omega

theorem MoreElements.exists_spelled
    {items : List α}
    (h : MoreElements close element items s t) :
    ∀ a ∈ items, ∃ u v, element a u v := by
  induction h with
  | close => simp
  | comma _ hItem _ ih =>
      intro b hb
      rcases List.mem_cons.mp hb with rfl | hRest
      · exact ⟨_, _, hItem⟩
      · exact ih b hRest

/- The elements of a list are spelled in it. -/
theorem Elements.exists_spelled
    {items : List α}
    (h : Elements close element items s t) :
    ∀ a ∈ items, ∃ u v, element a u v := by
  cases h with
  | empty => simp
  | cons hItem hRest =>
      intro b hb
      rcases List.mem_cons.mp hb with rfl | hLater
      · exact ⟨_, _, hItem⟩
      · exact hRest.exists_spelled b hLater

end Elements

section Decoding

variable {close : Char} {decode : β → Option α} {spelling : Spelling β}
variable {s t : List Char}

/- Lists of decoded elements are lists whose elements are decoded. -/
theorem moreElements_decoded_iff {items : List α} :
    MoreElements close (Decoded decode spelling) items s t ↔
      ∃ raws, MoreElements close spelling raws s t ∧
        raws.mapM decode = some items := by
  constructor
  · intro h
    induction h with
    | close hClose => exact ⟨[], MoreElements.close hClose, rfl⟩
    | comma hComma hElement _ ih =>
        rcases hElement with ⟨raw, hRaw, hDecode⟩
        rcases ih with ⟨raws, hRaws, hDecodes⟩
        exact ⟨raw :: raws, MoreElements.comma hComma hRaw hRaws, by
          simp [hDecode, hDecodes]⟩
  · rintro ⟨raws, h, hDecodes⟩
    induction h generalizing items with
    | close hClose =>
        obtain rfl : [] = items := by simpa using hDecodes
        exact MoreElements.close hClose
    | comma hComma hRaw _ ih =>
        simp only [List.mapM_cons, Option.bind_eq_bind,
          Option.bind_eq_some_iff, Option.pure_def,
          Option.some.injEq] at hDecodes
        rcases hDecodes with ⟨a, hDecode, rest, hRest, rfl⟩
        exact MoreElements.comma hComma ⟨_, hRaw, hDecode⟩ (ih hRest)

theorem elements_decoded_iff {items : List α} :
    Elements close (Decoded decode spelling) items s t ↔
      ∃ raws, Elements close spelling raws s t ∧
        raws.mapM decode = some items := by
  constructor
  · intro h
    cases h with
    | empty hClose => exact ⟨[], Elements.empty hClose, rfl⟩
    | cons hElement hRest =>
        rcases hElement with ⟨raw, hRaw, hDecode⟩
        rcases moreElements_decoded_iff.mp hRest with
          ⟨raws, hRaws, hDecodes⟩
        exact ⟨raw :: raws, Elements.cons hRaw hRaws, by
          simp [hDecode, hDecodes]⟩
  · rintro ⟨raws, h, hDecodes⟩
    cases h with
    | empty hClose =>
        obtain rfl : [] = items := by simpa using hDecodes
        exact Elements.empty hClose
    | cons hRaw hRaws =>
        simp only [List.mapM_cons, Option.bind_eq_bind,
          Option.bind_eq_some_iff, Option.pure_def,
          Option.some.injEq] at hDecodes
        rcases hDecodes with ⟨a, hDecode, rest, hRest, rfl⟩
        exact Elements.cons ⟨_, hRaw, hDecode⟩
          (moreElements_decoded_iff.mpr ⟨_, hRaws, hRest⟩)

theorem Separable.decoded (h : Separable close spelling) :
    Separable close (Decoded decode spelling) where
  length_lt := fun ⟨_, hSpelled, _⟩ => h.length_lt hSpelled
  head_ne := fun ⟨_, hSpelled, _⟩ => h.head_ne hSpelled

end Decoding

------------------------------------------------------------
-- Lists
------------------------------------------------------------

/- The way to the next element of a list, or to the list's end. -/
inductive NextElement : Bool → Spelling Bool
| close {first s t} :
    afterGap s = ']' :: t →
    NextElement first false s (']' :: t)
| first {x s t} :
    afterGap s = x :: t →
    x ≠ ']' →
    NextElement true true s (x :: t)
| comma {x s u t} :
    afterGap s = ',' :: u →
    afterGap u = x :: t →
    x ≠ ']' →
    NextElement false true s (x :: t)

theorem accepts_nextElement (first : Bool) :
    Accepts (nextElement first) (NextElement first) := by
  intro c more t
  unfold nextElement
  constructor
  · intro h
    cases hGap : afterGap c.rest with
    | nil => simp [hGap] at h
    | cons x rest =>
        by_cases hEnd : x = ']'
        · simp only [Cursor.rest_skipBlanks, hGap, hEnd, if_true,
            leaves_ok_iff] at h
          rcases h with ⟨rfl, rfl⟩
          exact NextElement.close (hEnd ▸ hGap)
        · simp only [Cursor.rest_skipBlanks, hGap, hEnd, if_false] at h
          cases first with
          | true =>
              simp only [if_true, leaves_ok_iff,
                Cursor.rest_skipBlanks, hGap] at h
              rcases h with ⟨rfl, rfl⟩
              exact NextElement.first hGap hEnd
          | false =>
              by_cases hComma : x = ','
              · subst hComma
                cases hMore : afterGap rest with
                | nil => simp [hGap, hMore] at h
                | cons y more =>
                    by_cases hLast : y = ']'
                    · simp [hGap, hMore, hLast] at h
                    · simp only [if_true, Cursor.rest_skipBlanks,
                        Cursor.rest_next, hGap, List.tail_cons, hMore,
                        hLast, Bool.false_eq_true, if_false,
                        leaves_ok_iff] at h
                      rcases h with ⟨rfl, rfl⟩
                      exact NextElement.comma hGap hMore hLast
              · simp [hComma] at h
  · intro h
    cases h with
    | close hClose => simp [hClose]
    | first hGap hEnd => simp [hGap, hEnd]
    | comma hComma hGap hEnd => simp [hComma, hGap, hEnd]

theorem NextElement.length_le
    {first more : Bool}
    {s t : List Char}
    (h : NextElement first more s t) :
    t.length ≤ s.length := by
  cases h with
  | close hClose => exact hClose ▸ length_afterGap_le s
  | first hGap _ => exact hGap ▸ length_afterGap_le s
  | @comma x s u t hComma hGap _ =>
      have hFirst := length_lt_of_afterGap_eq hComma
      have hSecond := length_afterGap_le u
      rw [hGap] at hSecond
      exact hSecond.trans hFirst.le

section Sequences

variable {element : Reader α} {spelling : Spelling α} {fuel : Nat}
variable {c : Cursor} {items : List α} {a : α} {s t : List Char}

/- What an element starts with is no blank and does not end a list. -/
theorem Separable.starts
    (hSeparable : Separable ']' spelling)
    (h : spelling a (afterGap s) t) :
    ∃ x u, afterGap s = x :: u ∧ x ≠ ']' := by
  cases hGap : afterGap s with
  | nil =>
      rw [hGap] at h
      exact absurd (hSeparable.length_lt h) (Nat.not_lt_zero _)
  | cons x u =>
      rw [hGap] at h
      exact ⟨x, u, rfl, hSeparable.head_ne h⟩

/- The first element of a list is what comes next. -/
theorem first_element_iff (hSeparable : Separable ']' spelling) :
    (∃ u, NextElement true true s u ∧ spelling a (afterGap u) t) ↔
      spelling a (afterGap s) t := by
  constructor
  · rintro ⟨u, hNext, hItem⟩
    cases hNext with
    | first hGap _ => rwa [← hGap, afterGap_afterGap] at hItem
  · intro hItem
    rcases hSeparable.starts hItem with ⟨x, u, hGap, hEnd⟩
    refine ⟨_, NextElement.first hGap hEnd, ?_⟩
    rwa [← hGap, afterGap_afterGap]

/- Any other element comes after a comma. -/
theorem next_element_iff (hSeparable : Separable ']' spelling) :
    (∃ u, NextElement false true s u ∧ spelling a (afterGap u) t) ↔
      ∃ u, afterGap s = ',' :: u ∧ spelling a (afterGap u) t := by
  constructor
  · rintro ⟨u, hNext, hItem⟩
    cases hNext with
    | comma hComma hGap _ =>
        rw [← hGap, afterGap_afterGap] at hItem
        exact ⟨_, hComma, hItem⟩
  · rintro ⟨w, hComma, hItem⟩
    rcases hSeparable.starts hItem with ⟨x, u, hGap, hEnd⟩
    refine ⟨_, NextElement.comma hComma hGap hEnd, ?_⟩
    rwa [← hGap, afterGap_afterGap]

/- An element and those after it, or the end. -/
def AfterNext
    (spelling : Spelling α)
    (items : List α)
    (t : List Char)
    (more : Bool)
    (u : List Char) : Prop :=
  if more then
    ∃ a v, spelling a (afterGap u) v ∧
      ∃ rest, MoreElements ']' spelling rest v t ∧ a :: rest = items
  else
    [] = items ∧ u.tail = t

theorem elements_iff_next (hSeparable : Separable ']' spelling) :
    (∃ more u, NextElement true more s u ∧
        AfterNext spelling items t more u) ↔
      Elements ']' spelling items s t := by
  constructor
  · rintro ⟨more, u, hNext, hAfter⟩
    cases more with
    | false =>
        rcases hAfter with ⟨rfl, rfl⟩
        cases hNext with
        | close hClose => exact Elements.empty hClose
    | true =>
        rcases hAfter with ⟨a, v, hItem, rest, hRest, rfl⟩
        exact Elements.cons
          ((first_element_iff hSeparable).mp ⟨u, hNext, hItem⟩) hRest
  · intro h
    cases h with
    | empty hClose => exact ⟨_, _, NextElement.close hClose, rfl, rfl⟩
    | cons hItem hRest =>
        rcases (first_element_iff hSeparable).mpr hItem with
          ⟨u, hNext, hItem⟩
        exact ⟨true, u, hNext, _, _, hItem, _, hRest, rfl⟩

theorem moreElements_iff_next (hSeparable : Separable ']' spelling) :
    (∃ more u, NextElement false more s u ∧
        AfterNext spelling items t more u) ↔
      MoreElements ']' spelling items s t := by
  constructor
  · rintro ⟨more, u, hNext, hAfter⟩
    cases more with
    | false =>
        rcases hAfter with ⟨rfl, rfl⟩
        cases hNext with
        | close hClose => exact MoreElements.close hClose
    | true =>
        rcases hAfter with ⟨a, v, hItem, rest, hRest, rfl⟩
        rcases (next_element_iff hSeparable).mp ⟨u, hNext, hItem⟩ with
          ⟨w, hComma, hItem⟩
        exact MoreElements.comma hComma hItem hRest
  · intro h
    cases h with
    | close hClose => exact ⟨_, _, NextElement.close hClose, rfl, rfl⟩
    | comma hComma hItem hRest =>
        rcases (next_element_iff hSeparable).mpr ⟨_, hComma, hItem⟩
          with ⟨u, hNext, hItem⟩
        exact ⟨true, u, hNext, _, _, hItem, _, hRest, rfl⟩

/- One element is read, and then the others. -/
theorem leaves_readElements_succ_iff
    (hRead : Accepts element (Spaced spelling))
    (hSeparable : Separable ']' spelling)
    {first : Bool}
    (hRest : ∀ c' rest u, c'.rest.length < c.rest.length →
      (Leaves (readElements element fuel false c') rest u ↔
        MoreElements ']' spelling rest c'.rest u)) :
    Leaves (readElements element (fuel + 1) first c) items t ↔
      ∃ more u, NextElement first more c.rest u ∧
        AfterNext spelling items t more u := by
  unfold readElements
  refine leaves_bind_iff_of_accepts (accepts_nextElement first)
    fun more c' hNext => ?_
  cases more with
  | false => simp [AfterNext]
  | true =>
      simp only [if_true]
      refine leaves_bind_iff_of_accepts hRead fun a c'' hItem => ?_
      have hLess : c''.rest.length < c.rest.length := by
        have hGap := length_afterGap_le c'.rest
        have hShort := hSeparable.length_lt hItem
        have hBefore := hNext.length_le
        omega
      rw [leaves_bind_iff
        (p := fun rest u => a :: rest = items ∧ u = t)
        (fun rest u => hRest c'' rest u hLess)
        (fun rest c _ => by simp)]
      constructor
      · rintro ⟨rest, u, hRest, rfl, rfl⟩
        exact ⟨rest, hRest, rfl⟩
      · rintro ⟨rest, hRest, rfl⟩
        exact ⟨rest, t, hRest, rfl, rfl⟩

/- The elements of a list are read up to its end. -/
theorem leaves_readElements_iff
    (hRead : Accepts element (Spaced spelling))
    (hSeparable : Separable ']' spelling)
    (hFuel : c.rest.length < fuel) :
    (Leaves (readElements element fuel true c) items t ↔
        Elements ']' spelling items c.rest t) ∧
      (Leaves (readElements element fuel false c) items t ↔
        MoreElements ']' spelling items c.rest t) := by
  induction fuel generalizing c items t with
  | zero => exact absurd hFuel (Nat.not_lt_zero _)
  | succ fuel ih =>
      have hRest (c' : Cursor) (rest : List α) (u : List Char)
          (hLess : c'.rest.length < c.rest.length) :
          Leaves (readElements element fuel false c') rest u ↔
            MoreElements ']' spelling rest c'.rest u :=
        (ih (by omega)).2
      constructor
      · rw [leaves_readElements_succ_iff hRead hSeparable hRest]
        exact elements_iff_next hSeparable
      · rw [leaves_readElements_succ_iff hRead hSeparable hRest]
        exact moreElements_iff_next hSeparable

/- A list is read after its opening bracket. -/
theorem accepts_readSequence
    (hRead : Accepts element (Spaced spelling))
    (hSeparable : Separable ']' spelling) :
    Accepts (readSequence element) (Elements ']' spelling) :=
  fun _ _ _ => (leaves_readElements_iff hRead hSeparable
    (Nat.lt_succ_self _)).1

end Sequences

end Bindery.Json

import Bindery.Proofs.Json.ListAcceptance
import Bindery.Proofs.Json.StringAcceptance

/-
  This file says that the members of objects are read as the
  grammar has them, whatever is made of a member.

  Key definitions include:
    * `Takes`
    * `Members`
    * `Step`

  Key theorems include:
    * `accepts_nextKey`
    * `accepts_readColon`
    * `accepts_foldMembers`
-/

namespace Bindery.Json

variable {β : Type}

/- The way to the quote of the next key, or to the object's end. -/
inductive NextKey : Bool → Spelling Bool
| close {first s t} :
    afterGap s = '}' :: t →
    NextKey first false s ('}' :: t)
| first {s t} :
    afterGap s = '"' :: t →
    NextKey true true s ('"' :: t)
| comma {s u t} :
    afterGap s = ',' :: u →
    afterGap u = '"' :: t →
    NextKey false true s ('"' :: t)

theorem accepts_nextKey (first : Bool) :
    Accepts (nextKey first) (NextKey first) := by
  intro c more t
  unfold nextKey
  constructor
  · intro h
    cases hGap : afterGap c.rest with
    | nil => simp [hGap] at h
    | cons x rest =>
        by_cases hEnd : x = '}'
        · simp only [Cursor.rest_skipBlanks, hGap, hEnd, if_true,
            leaves_ok_iff] at h
          rcases h with ⟨rfl, rfl⟩
          exact NextKey.close (hEnd ▸ hGap)
        · simp only [Cursor.rest_skipBlanks, hGap, hEnd, if_false] at h
          cases first with
          | true =>
              by_cases hQuote : x = '"'
              · simp only [if_true, hQuote, leaves_ok_iff,
                  Cursor.rest_skipBlanks, hGap] at h
                rcases h with ⟨rfl, rfl⟩
                exact NextKey.first (hQuote ▸ hGap)
              · simp [hQuote] at h
          | false =>
              by_cases hComma : x = ','
              · subst hComma
                cases hMore : afterGap rest with
                | nil => simp [hGap, hMore] at h
                | cons y more =>
                    by_cases hQuote : y = '"'
                    · simp only [if_true, Cursor.rest_skipBlanks,
                        Cursor.rest_next, hGap, List.tail_cons, hMore,
                        hQuote, Bool.false_eq_true, if_false,
                        leaves_ok_iff] at h
                      rcases h with ⟨rfl, rfl⟩
                      exact NextKey.comma hGap (hQuote ▸ hMore)
                    · by_cases hLast : y = '}'
                      · simp [hGap, hMore, hLast] at h
                      · simp [hGap, hMore, hLast, hQuote] at h
              · simp [hComma] at h
  · intro h
    cases h with
    | close hClose => simp [hClose]
    | first hGap => simp [hGap]
    | comma hComma hGap => simp [hComma, hGap]

theorem accepts_readColon :
    Accepts readColon fun _ s t => afterGap s = ':' :: t := by
  intro c _ t
  unfold readColon
  cases hGap : afterGap c.rest with
  | nil => simp [hGap]
  | cons x rest =>
      by_cases hColon : x = ':'
      · simp [hGap, hColon]
      · simp [hGap, hColon]

theorem NextKey.length_le
    {first more : Bool}
    {s t : List Char}
    (h : NextKey first more s t) :
    t.length ≤ s.length := by
  cases h with
  | close hClose => exact hClose ▸ length_afterGap_le s
  | first hGap => exact hGap ▸ length_afterGap_le s
  | @comma s u t hComma hGap =>
      have hFirst := length_lt_of_afterGap_eq hComma
      have hSecond := length_afterGap_le u
      rw [hGap] at hSecond
      exact hSecond.trans hFirst.le

section Members

variable {σ : Type} {spelling : Spelling β}
variable {next : σ → String → β → Option σ}
variable {state after : σ} {s t : List Char}

/- What comes of a state when members are taken in one by one. -/
def Takes
    (next : σ → String → β → Option σ)
    (members : List (String × β))
    (state after : σ) : Prop :=
  members.foldlM (fun state member => next state member.1 member.2)
    state = some after

@[simp] theorem takes_nil_iff :
    Takes next [] state after ↔ state = after := by
  simp [Takes]

@[simp] theorem takes_cons_iff
    {member : String × β}
    {members : List (String × β)} :
    Takes next (member :: members) state after ↔
      ∃ between, next state member.1 member.2 = some between ∧
        Takes next members between after := by
  simp [Takes, Option.bind_eq_some_iff]

/- Members that are taken in; the end of the object is not passed. -/
def Members
    (spelling : Spelling β)
    (next : σ → String → β → Option σ)
    (state : σ) : Spelling σ := fun after s t =>
  ∃ members u, Elements '}' (Member spelling) members s u ∧
    Takes next members state after ∧ '}' :: u = t

/- The same after a first member. -/
def MoreMembers
    (spelling : Spelling β)
    (next : σ → String → β → Option σ)
    (state : σ) : Spelling σ := fun after s t =>
  ∃ members u, MoreElements '}' (Member spelling) members s u ∧
    Takes next members state after ∧ '}' :: u = t

/- The value of a member, with what comes of a state by it. -/
def Step
    (spelling : Spelling β)
    (next : σ → String → β → Option σ)
    (state : σ)
    (key : String) : Spelling σ :=
  Decoded (next state key) (AfterColon spelling)

/- A member after its opening quote and those after it, or the end. -/
def AfterKey
    (spelling : Spelling β)
    (next : σ → String → β → Option σ)
    (state after : σ)
    (t : List Char)
    (more : Bool)
    (u : List Char) : Prop :=
  if more then
    ∃ key v, (∃ chars, Quoted chars u.tail v ∧
        String.ofList chars = key) ∧
      ∃ between w, Step spelling next state key between v w ∧
        MoreMembers spelling next between after w t
  else
    state = after ∧ u = t

/- A member and those after it, read from the key on. -/
theorem afterKey_iff {u : List Char} :
    AfterKey spelling next state after t true ('"' :: u) ↔
      ∃ member v, Member spelling member ('"' :: u) v ∧
        ∃ between, next state member.1 member.2 = some between ∧
          MoreMembers spelling next between after v t := by
  constructor
  · rintro ⟨_, v, ⟨chars, hChars, rfl⟩, between, w,
      ⟨b, hValue, hNext⟩, hMore⟩
    exact ⟨_, w, Member.mk hChars hValue, between, hNext, hMore⟩
  · rintro ⟨_, v, hMember, between, hNext, hMore⟩
    cases hMember with
    | mk hChars hValue =>
        exact ⟨_, _, ⟨_, hChars, rfl⟩, between, v, ⟨_, hValue, hNext⟩,
          hMore⟩

theorem members_iff_next :
    (∃ more u, NextKey true more s u ∧
        AfterKey spelling next state after t more u) ↔
      Members spelling next state after s t := by
  constructor
  · rintro ⟨more, u, hNext, hAfter⟩
    cases hNext with
    | close hClose =>
        rcases hAfter with ⟨rfl, rfl⟩
        exact ⟨[], _, Elements.empty hClose, takes_nil_iff.mpr rfl, rfl⟩
    | first hGap =>
        rcases afterKey_iff.mp hAfter with
          ⟨member, v, hMember, between, hTake, members, w, hMore,
            hTakes, rfl⟩
        exact ⟨member :: members, w,
          Elements.cons (hGap ▸ hMember) hMore,
          takes_cons_iff.mpr ⟨between, hTake, hTakes⟩, rfl⟩
  · rintro ⟨members, w, hElements, hTakes, rfl⟩
    cases hElements with
    | empty hClose =>
        exact ⟨_, _, NextKey.close hClose, takes_nil_iff.mp hTakes, rfl⟩
    | @cons member rest s v t hMember hMore =>
        rcases takes_cons_iff.mp hTakes with ⟨between, hTake, hRest⟩
        obtain ⟨u, hGap⟩ : ∃ u, afterGap s = '"' :: u := by
          generalize afterGap s = s' at hMember
          cases hMember with
          | mk => exact ⟨_, rfl⟩
        exact ⟨_, _, NextKey.first hGap, afterKey_iff.mpr
          ⟨member, v, hGap ▸ hMember, between, hTake, rest, _, hMore,
            hRest, rfl⟩⟩

theorem moreMembers_iff_next :
    (∃ more u, NextKey false more s u ∧
        AfterKey spelling next state after t more u) ↔
      MoreMembers spelling next state after s t := by
  constructor
  · rintro ⟨more, u, hNext, hAfter⟩
    cases hNext with
    | close hClose =>
        rcases hAfter with ⟨rfl, rfl⟩
        exact ⟨[], _, MoreElements.close hClose,
          takes_nil_iff.mpr rfl, rfl⟩
    | comma hComma hGap =>
        rcases afterKey_iff.mp hAfter with
          ⟨member, v, hMember, between, hTake, members, w, hMore,
            hTakes, rfl⟩
        exact ⟨member :: members, w,
          MoreElements.comma hComma (hGap ▸ hMember) hMore,
          takes_cons_iff.mpr ⟨between, hTake, hTakes⟩, rfl⟩
  · rintro ⟨members, w, hElements, hTakes, rfl⟩
    cases hElements with
    | close hClose =>
        exact ⟨_, _, NextKey.close hClose, takes_nil_iff.mp hTakes, rfl⟩
    | @comma member rest s u' v t hComma hMember hMore =>
        rcases takes_cons_iff.mp hTakes with ⟨between, hTake, hRest⟩
        obtain ⟨u, hGap⟩ : ∃ u, afterGap u' = '"' :: u := by
          generalize afterGap u' = s' at hMember
          cases hMember with
          | mk => exact ⟨_, rfl⟩
        exact ⟨_, _, NextKey.comma hComma hGap, afterKey_iff.mpr
          ⟨member, v, hGap ▸ hMember, between, hTake, rest, _, hMore,
            hRest, rfl⟩⟩

section Folding

variable {step : σ → String → Reader σ} {fuel : Nat} {c : Cursor}

theorem Step.length_lt
    (hSpelling : ∀ {b s t}, spelling b s t → t.length < s.length)
    {key : String}
    (h : Step spelling next state key after s t) :
    t.length < s.length := by
  rcases h with ⟨b, hColon, -⟩
  cases hColon with
  | @mk a s u t hGap hValue =>
      have hFirst := length_lt_of_afterGap_eq hGap
      have hBetween := length_afterGap_le u
      have hSecond := hSpelling hValue
      omega

/- One member is read, and then the others. -/
theorem leaves_foldMembersFrom_succ_iff
    (hStep : ∀ state key,
      Accepts (step state key) (Step spelling next state key))
    (hSpelling : ∀ {b s t}, spelling b s t → t.length < s.length)
    {first : Bool}
    (hRest : ∀ c' between, c'.rest.length < c.rest.length →
      (Leaves (foldMembersFrom step fuel false between c') after t ↔
        MoreMembers spelling next between after c'.rest t)) :
    Leaves (foldMembersFrom step (fuel + 1) first state c) after t ↔
      ∃ more u, NextKey first more c.rest u ∧
        AfterKey spelling next state after t more u := by
  unfold foldMembersFrom
  refine leaves_bind_iff_of_accepts (accepts_nextKey first)
    fun more c₁ hKey => ?_
  cases more with
  | false => simp [AfterKey]
  | true =>
      simp only [if_true, AfterKey, ← Cursor.rest_next]
      refine leaves_bind_iff_of_accepts accepts_readString
        fun key c₂ hText => ?_
      refine leaves_bind_iff_of_accepts (hStep state key)
        fun between c₃ hMember => hRest c₃ between ?_
      rcases hText with ⟨chars, hChars, -⟩
      have hFirst := hKey.length_le
      have hSecond := hChars.length_lt
      have hThird : c₃.rest.length < c₂.rest.length :=
        hMember.length_lt hSpelling
      simp only [Cursor.rest_next, List.length_tail] at hSecond
      omega

theorem leaves_foldMembersFrom_iff
    (hStep : ∀ state key,
      Accepts (step state key) (Step spelling next state key))
    (hSpelling : ∀ {b s t}, spelling b s t → t.length < s.length)
    (hFuel : c.rest.length < fuel) :
    (Leaves (foldMembersFrom step fuel true state c) after t ↔
        Members spelling next state after c.rest t) ∧
      (Leaves (foldMembersFrom step fuel false state c) after t ↔
        MoreMembers spelling next state after c.rest t) := by
  induction fuel generalizing c state with
  | zero => exact absurd hFuel (Nat.not_lt_zero _)
  | succ fuel ih =>
      have hRest (c' : Cursor) (between : σ)
          (hLess : c'.rest.length < c.rest.length) :
          Leaves (foldMembersFrom step fuel false between c') after t ↔
            MoreMembers spelling next between after c'.rest t :=
        (ih (by omega)).2
      constructor
      · rw [leaves_foldMembersFrom_succ_iff hStep hSpelling hRest]
        exact members_iff_next
      · rw [leaves_foldMembersFrom_succ_iff hStep hSpelling hRest]
        exact moreMembers_iff_next

/- The members of an object are read after its opening brace. -/
theorem accepts_foldMembers
    (hStep : ∀ state key,
      Accepts (step state key) (Step spelling next state key))
    (hSpelling : ∀ {b s t}, spelling b s t → t.length < s.length)
    (state : σ) :
    Accepts (foldMembers step state) (Members spelling next state) :=
  fun _ _ _ => (leaves_foldMembersFrom_iff hStep hSpelling
    (Nat.lt_succ_self _)).1

end Folding

end Members

end Bindery.Json

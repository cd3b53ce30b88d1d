import Bindery.Json.Writer
import Bindery.Proofs.Json.Canonical

/-
  This file says that the compact text of a canonical document
  spells that document.

  Key definitions include:
    * `EndsNumber`
    * `commaChars`

  Key theorems include:
    * `quoted_escapeChars`
    * `number_intChars`
    * `elements_commaChars`
    * `value_chars`
    * `isDocument_compact`
-/

namespace Bindery.Json

variable {s t : List Char}

------------------------------------------------------------
-- Strings
------------------------------------------------------------

theorem hexFour_control :
    ∀ n < 16, hexFour '0' '0' '0' (Nat.digitChar n) = some n := by
  decide

theorem hexFour_later_control :
    ∀ n < 32, 16 ≤ n →
      hexFour '0' '0' '1' (Nat.digitChar (n - 16)) = some n := by
  decide

/- A control character that is written as its number. -/
theorem quoted_control
    {c x y : Char}
    {chars : List Char}
    (hControl : c.toNat < 32)
    (hFour : hexFour '0' '0' x y = some c.toNat)
    (h : Quoted chars s t) :
    Quoted (c :: chars)
      ('\\' :: 'u' :: '0' :: '0' :: x :: y :: s) t := by
  have hLeading : isLeading c.toNat = false := by
    simp only [isLeading, Bool.and_eq_false_iff,
      decide_eq_false_iff_not]
    omega
  have hTrailing : isTrailing c.toNat = false := by
    simp only [isTrailing, Bool.and_eq_false_iff,
      decide_eq_false_iff_not]
    omega
  have hEscape := Escape.unit (t := s) hFour hLeading hTrailing
  rw [Char.ofNat_toNat] at hEscape
  exact Quoted.escape hEscape h

/- A character that is written is read as itself. -/
theorem quoted_escapeChar
    {c : Char}
    {chars : List Char}
    (h : Quoted chars s t) :
    Quoted (c :: chars) (escapeChar c ++ s) t := by
  have hMark {x : Char} (hMem : (x, c) ∈ escapeMarks) :
      Quoted (c :: chars) ('\\' :: x :: s) t :=
    Quoted.escape (Escape.mark hMem) h
  unfold escapeChar
  split_ifs with hQuote hBackslash hB hF hN hR hT hControl hLater
  · exact hMark (by simp [hQuote, escapeMarks])
  · exact hMark (by simp [hBackslash, escapeMarks])
  · exact hMark (by simp [hB, escapeMarks])
  · exact hMark (by simp [hF, escapeMarks])
  · exact hMark (by simp [hN, escapeMarks])
  · exact hMark (by simp [hR, escapeMarks])
  · exact hMark (by simp [hT, escapeMarks])
  · rw [Nat.toDigits_of_lt_base hControl]
    exact quoted_control (by omega) (hexFour_control _ hControl) h
  · have hDigits : Nat.toDigits 16 c.toNat =
        ['1', Nat.digitChar (c.toNat - 16)] := by
      have hSplit : c.toNat = 16 * 1 + (c.toNat - 16) := by omega
      rw [hSplit, ← Nat.toDigits_append_toDigits (by decide)
        (by decide) (by omega), Nat.toDigits_of_lt_base (by decide),
        Nat.toDigits_of_lt_base (by omega), ← hSplit]
      rfl
    rw [hDigits]
    exact quoted_control hLater
      (hexFour_later_control _ hLater (by omega)) h
  · exact Quoted.plain hQuote hBackslash (Nat.not_lt.mp hLater) h

theorem quoted_escapeChars (chars : List Char) :
    Quoted chars (chars.flatMap escapeChar ++ '"' :: t) t := by
  induction chars with
  | nil => exact Quoted.close
  | cons c rest ih =>
      rw [List.flatMap_cons, List.append_assoc]
      exact quoted_escapeChar ih

theorem stringChars_append (value : String) :
    stringChars value ++ t =
      '"' :: (value.toList.flatMap escapeChar ++ '"' :: t) := by
  simp [stringChars]

------------------------------------------------------------
-- Numbers
------------------------------------------------------------

/- What may follow a number does not go on with it. -/
def EndsNumber (t : List Char) : Prop :=
  ∀ x ∈ t.head?, x.isDigit = false ∧ x ≠ '.' ∧ x ≠ 'e' ∧ x ≠ 'E'

theorem le_ofDigitChars (digits : List Char) (n : Nat) :
    n ≤ Nat.ofDigitChars 10 digits n := by
  rw [Nat.ofDigitChars_eq_ofDigitChars_zero]
  have hPos : 0 < 10 ^ digits.length := Nat.pow_pos (by decide)
  have hLe := Nat.le_mul_of_pos_left n hPos
  omega

/- All digits of a number that fits have room. -/
theorem absorb_of_fits
    {digits : List Char}
    {n : Nat}
    (hFits : Nat.ofDigitChars 10 digits n < 0x10000000000000000) :
    absorb n digits = (Nat.ofDigitChars 10 digits n, []) := by
  induction digits generalizing n with
  | nil => rfl
  | cons d rest ih =>
      have hNext : Nat.ofDigitChars 10 (d :: rest) n =
          Nat.ofDigitChars 10 rest (n * 10 + digitValue d) := by
        rw [Nat.ofDigitChars_cons, Nat.mul_comm]
        rfl
      rw [hNext] at hFits ⊢
      have hRoom := (le_ofDigitChars rest _).trans_lt hFits
      rw [absorb, if_pos hRoom, ih hFits]

/- Only a zero starts with a zero. -/
theorem toDigits_head (n : Nat) :
    (Nat.toDigits 10 n).head? = some '0' →
      Nat.toDigits 10 n = ['0'] := by
  induction n using Nat.strongRecOn with
  | ind n ih =>
      intro hHead
      by_cases hSmall : n < 10
      · rw [Nat.toDigits_of_lt_base hSmall] at hHead ⊢
        simpa using hHead
      · rw [Nat.toDigits_of_base_le (by decide) (by omega),
          List.head?_append_of_ne_nil _ Nat.toDigits_ne_nil] at hHead
        have hZero := ih (n / 10) (by omega) hHead
        have hValue := Nat.ofDigitChars_ten_toDigits (n := n / 10)
        rw [hZero] at hValue
        have hNone : Nat.ofDigitChars 10 ['0'] 0 = 0 := rfl
        omega

theorem digits_toDigits
    {n : Nat}
    (hEnd : EndsNumber t) :
    Digits (Nat.toDigits 10 n) (Nat.toDigits 10 n ++ t) t := by
  have hAll (d : Char) (h : d ∈ Nat.toDigits 10 n) : d.isDigit = true :=
    Nat.isDigit_of_mem_toDigits (by decide) (by decide) h
  have hNone : t.takeWhile Char.isDigit = [] ∧
      t.dropWhile Char.isDigit = t := by
    cases t with
    | nil => simp
    | cons x rest => simp [(hEnd x rfl).1]
  refine ⟨Nat.toDigits_ne_nil, ?_, ?_⟩
  · rw [List.takeWhile_append_of_pos hAll, hNone.1, List.append_nil]
  · rw [List.dropWhile_append_of_pos hAll, hNone.2]

theorem unsigned_toDigits
    {positive : Bool}
    {n : Nat}
    (hFits : n < 0x10000000000000000)
    (hEnd : EndsNumber t) :
    Unsigned positive (integerValue positive n)
      (Nat.toDigits 10 n ++ t) t := by
  have hAbsorb : absorb 0 (Nat.toDigits 10 n) = (n, []) := by
    rw [absorb_of_fits]
    · rw [Nat.ofDigitChars_ten_toDigits]
    · rwa [Nat.ofDigitChars_ten_toDigits]
  have hHead (x : Char) (h : t.head? = some x) := hEnd x h
  refine ⟨Nat.toDigits 10 n, t, ⟨digits_toDigits hEnd, toDigits_head n⟩,
    none, t, Fraction.absent ?_, none, Exponent.absent ?_ ?_, ?_⟩
  · exact fun h => (hHead _ h).2.1 rfl
  · exact fun h => (hHead _ h).2.2.1 rfl
  · exact fun h => (hHead _ h).2.2.2 rfl
  · rw [hAbsorb]
    rfl

theorem number_intChars
    {n : Int}
    (hFits : fits n = true)
    (hEnd : EndsNumber t) :
    Number (.int n) (intChars n ++ t) t := by
  simp only [fits, Bool.and_eq_true, decide_eq_true_eq] at hFits
  unfold intChars
  by_cases hNegative : n < 0
  · rw [if_pos hNegative]
    have hValue : integerValue false n.natAbs = .int n := by
      have hRange : ¬ (n.natAbs = 0 ∨ 0x8000000000000000 < n.natAbs) := by
        omega
      have hAbs : -(n.natAbs : Int) = n := by omega
      rw [integerValue, if_neg (by decide), if_neg hRange, hAbs]
    rw [← hValue]
    exact Number.negative (unsigned_toDigits (by omega) hEnd)
  · rw [if_neg hNegative]
    have hValue : integerValue true n.natAbs = .int n := by
      have hAbs : (n.natAbs : Int) = n := by omega
      rw [integerValue, if_pos rfl, hAbs]
    rw [← hValue]
    exact Number.positive (unsigned_toDigits (by omega) hEnd)

------------------------------------------------------------
-- Lists
------------------------------------------------------------

section Lists

variable {α : Type} {spelling : Spelling α} {write : α → List Char}

/- Texts with commas between them. -/
def commaChars
    (write : α → List Char)
    (items : List α) : List Char :=
  List.intercalate [','] (items.map write)

theorem itemChars_eq (items : List Json) :
    itemChars items = commaChars chars items := by
  induction items with
  | nil => simp [itemChars, commaChars]
  | cons item rest ih =>
      cases rest with
      | nil => simp [itemChars, commaChars]
      | cons next rest =>
          rw [itemChars, ih]
          simp [commaChars]

/- The text of a member. -/
def memberText (member : String × Json) : List Char :=
  stringChars member.1 ++ ':' :: chars member.2

theorem memberChars_eq (members : List (String × Json)) :
    memberChars members = commaChars memberText members := by
  induction members with
  | nil => simp [memberChars, commaChars]
  | cons member rest ih =>
      cases rest with
      | nil => simp [memberChars, commaChars, memberText]
      | cons next rest =>
          rw [memberChars, ih]
          simp [commaChars, memberText]

/- Elements after a comma go on with a list. -/
theorem moreElements_comma
    {close : Char}
    {a : α}
    {rest : List α}
    (h : Elements close spelling (a :: rest) s t) :
    MoreElements close spelling (a :: rest) (',' :: s) t := by
  cases h with
  | cons hItem hRest =>
      have hComma : afterGap (',' :: s) = ',' :: s :=
        afterGap_cons_of_not_isGap (by decide)
      exact MoreElements.comma hComma hItem hRest

/- Texts of elements with commas between them are a list. -/
theorem elements_commaChars
    {close : Char}
    {items : List α}
    (hClose : afterGap (close :: t) = close :: t)
    (hEnd : EndsNumber (close :: t))
    (hGap : ∀ {a s t}, spelling a s t → afterGap s = s)
    (hWrite : ∀ a ∈ items, ∀ t, EndsNumber t →
      spelling a (write a ++ t) t) :
    Elements close spelling items
      (commaChars write items ++ close :: t) t := by
  induction items with
  | nil => exact Elements.empty hClose
  | cons a rest ih =>
      have hFirst := hWrite a List.mem_cons_self
      have hRest := ih fun b hb => hWrite b (List.mem_cons_of_mem _ hb)
      cases rest with
      | nil =>
          have hItem := hFirst _ hEnd
          rw [← hGap hItem] at hItem
          simpa [commaChars] using
            Elements.cons hItem (MoreElements.close hClose)
      | cons b rest =>
          have hComma : EndsNumber
              (',' :: (commaChars write (b :: rest) ++ close :: t)) := by
            simp [EndsNumber]
          have hItem := hFirst _ hComma
          rw [← hGap hItem] at hItem
          have hText : commaChars write (a :: b :: rest) ++ close :: t =
              write a ++
                ',' :: (commaChars write (b :: rest) ++ close :: t) := by
            simp [commaChars]
          rw [hText]
          exact Elements.cons hItem (moreElements_comma hRest)

end Lists

------------------------------------------------------------
-- Documents
------------------------------------------------------------

theorem isGap_of_isDigit {x : Char} (h : x.isDigit = true) :
    Cursor.isGap x = false := by
  by_contra hGap
  simp only [Cursor.isGap, Bool.not_eq_false, Bool.or_eq_true,
    decide_eq_true_eq] at hGap
  rcases hGap with ((rfl | rfl) | rfl) | rfl
  · exact absurd h (by decide)
  · exact absurd h (by decide)
  · exact absurd h (by decide)
  · exact absurd h (by decide)

theorem Scalar.afterGap_eq
    {j : Json}
    (h : Scalar j s t) :
    afterGap s = s := by
  cases s with
  | nil => rfl
  | cons x rest =>
      apply afterGap_cons_of_not_isGap
      rcases h.head with hHead | hDigit
      · simp only [List.mem_cons, List.not_mem_nil, or_false] at hHead
        rcases hHead with rfl | rfl | rfl | rfl | rfl <;> rfl
      · exact isGap_of_isDigit hDigit

/- A value does not start with blanks. -/
theorem Value.afterGap_eq
    {depth : Nat}
    {j : Json}
    (h : Value depth j s t) :
    afterGap s = s := by
  cases depth with
  | zero => exact Scalar.afterGap_eq h
  | succ depth =>
      cases h with
      | scalar h => exact h.afterGap_eq
      | array => exact afterGap_cons_of_not_isGap (by decide)
      | object => exact afterGap_cons_of_not_isGap (by decide)

theorem Member.afterGap_eq
    {spelling : Spelling Json}
    {member : String × Json}
    (h : Member spelling member s t) :
    afterGap s = s := by
  cases h with
  | mk => exact afterGap_cons_of_not_isGap (by decide)

theorem member_memberText
    {depth : Nat}
    {member : String × Json}
    (hValue : Value depth member.2 (chars member.2 ++ t) t) :
    Member (Value depth) member (memberText member ++ t) t := by
  have hText : memberText member ++ t =
      '"' :: (member.1.toList.flatMap escapeChar ++
        '"' :: ':' :: (chars member.2 ++ t)) := by
    simp [memberText, stringChars]
  have hColon : afterGap (':' :: (chars member.2 ++ t)) =
      ':' :: (chars member.2 ++ t) :=
    afterGap_cons_of_not_isGap (by decide)
  have hMember := Member.mk (quoted_escapeChars member.1.toList)
    (AfterColon.mk hColon (hValue.afterGap_eq.symm ▸ hValue))
  rw [String.ofList_toList] at hMember
  rw [hText]
  exact hMember

theorem scalar_chars
    {j : Json}
    (h : IsCanonical 0 j)
    (hEnd : EndsNumber t) :
    Scalar j (chars j ++ t) t := by
  cases j with
  | null => exact Scalar.null
  | bool b =>
      cases b with
      | false => exact Scalar.no
      | true => exact Scalar.yes
  | int n => exact Scalar.number (number_intChars h hEnd)
  | float x => exact h.elim
  | text value =>
      have hText := Scalar.text (quoted_escapeChars value.toList (t := t))
      rw [String.ofList_toList, ← stringChars_append] at hText
      exact hText
  | array items => exact h.elim
  | object members => exact h.elim

/- The text of a document spells it. -/
theorem value_chars
    {depth : Nat}
    {j : Json}
    (h : IsCanonical depth j)
    (hEnd : EndsNumber t) :
    Value depth j (chars j ++ t) t := by
  induction depth generalizing j t with
  | zero => exact scalar_chars h hEnd
  | succ depth ih =>
      cases j with
      | array items =>
          have hItems : Elements ']' (Value depth) items
              (commaChars chars items ++ ']' :: t) t :=
            elements_commaChars
              (afterGap_cons_of_not_isGap (by decide))
              (by simp [EndsNumber]) Value.afterGap_eq
              fun item hItem _ hEnd => ih (h item hItem) hEnd
          rw [chars, itemChars_eq, List.cons_append, List.append_assoc]
          exact Nested.array hItems
      | object members =>
          have hMembers : Elements '}' (Member (Value depth)) members
              (commaChars memberText members ++ '}' :: t) t :=
            elements_commaChars
              (afterGap_cons_of_not_isGap (by decide))
              (by simp [EndsNumber]) Member.afterGap_eq
              fun member hMember _ hEnd =>
                member_memberText (ih (h.2 member hMember) hEnd)
          rw [chars, memberChars_eq, List.cons_append, List.append_assoc]
          exact Nested.object hMembers
      | null => exact Nested.scalar (scalar_chars h hEnd)
      | bool b => exact Nested.scalar (scalar_chars h hEnd)
      | int n => exact Nested.scalar (scalar_chars h hEnd)
      | float x => exact h.elim
      | text value => exact Nested.scalar (scalar_chars h hEnd)

theorem isDocument_compact
    {depth : Nat}
    {j : Json}
    (h : IsCanonical depth j) :
    IsDocument depth j.compact j := by
  have hValue := value_chars (t := []) h (by simp [EndsNumber])
  refine ⟨[], ?_, rfl⟩
  rw [compact, String.toList_ofList]
  rw [List.append_nil] at hValue
  rwa [hValue.afterGap_eq]

end Bindery.Json

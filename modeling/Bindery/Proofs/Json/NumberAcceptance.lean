import Bindery.Proofs.Json.Acceptance

/-
  This file says that numbers are read as the grammar has them.

  Key definitions include:
    * `afterSign`
    * `readUnsignedExponent`

  Key theorems include:
    * `accepts_readExponent`
    * `accepts_readFraction`
    * `accepts_readAfterDigits`
    * `accepts_readNumber`
-/

namespace Bindery.Json

section Numbers

variable {positive : Bool} {c : Cursor} {j : Json} {s t : List Char}

@[simp] theorem not_digits_nil {digits : List Char} :
    ¬ Digits digits [] t := by
  rintro ⟨hSome, rfl, -⟩
  exact hSome rfl

theorem digits_cons_iff
    {d : Char}
    {digits : List Char} :
    Digits digits (d :: s) t ↔
      d.isDigit = true ∧ (d :: s).takeWhile Char.isDigit = digits ∧
        (d :: s).dropWhile Char.isDigit = t := by
  constructor
  · rintro ⟨hSome, rfl, rfl⟩
    refine ⟨?_, rfl, rfl⟩
    by_contra hNot
    exact hSome (by simp [hNot])
  · rintro ⟨hDigit, rfl, rfl⟩
    exact ⟨by simp [hDigit], rfl, rfl⟩

@[simp] theorem drop_length_digitsAt :
    c.rest.drop (digitsAt c).length =
      c.rest.dropWhile Char.isDigit := by
  unfold digitsAt
  induction c.rest with
  | nil => rfl
  | cons d rest ih =>
      by_cases hDigit : d.isDigit
      · simpa [hDigit] using ih
      · simp [hDigit]

@[simp] theorem leaves_scaledNumber_iff
    {significand : Nat}
    {exponent : Int} :
    Leaves (scaledNumber positive significand exponent c) j t ↔
      scaledValue positive significand exponent = some j ∧
        c.rest = t := by
  unfold scaledNumber scaledValue
  cases Reading.scaled significand exponent with
  | ok x => simp
  | error e => simp

/- What is left of a text after the sign that it may start with. -/
def afterSign : List Char → List Char
| '+' :: u => u
| '-' :: u => u
| s => s

theorem isDigit_head_of_digits
    {d : Char}
    {digits : List Char}
    (h : Digits digits (d :: s) t) :
    d.isDigit = true :=
  (digits_cons_iff.mp h).1

/- A sign is read where there is one, for a digit is none. -/
theorem exponentSign_digits_iff
    {up : Bool}
    {digits : List Char} :
    (∃ u, ExponentSign up s u ∧ Digits digits u t) ↔
      decide (s.head? ≠ some '-') = up ∧ Digits digits (afterSign s) t := by
  constructor
  · rintro ⟨u, hSign, hDigits⟩
    cases hSign with
    | plus => exact ⟨rfl, hDigits⟩
    | minus => exact ⟨rfl, hDigits⟩
    | absent =>
        cases s with
        | nil => exact absurd hDigits not_digits_nil
        | cons d rest =>
            have hDigit := isDigit_head_of_digits hDigits
            have hPlus : d ≠ '+' := by
              rintro rfl
              exact absurd hDigit (by decide)
            have hMinus : d ≠ '-' := by
              rintro rfl
              exact absurd hDigit (by decide)
            refine ⟨by simp [hMinus], ?_⟩
            simpa [afterSign, hPlus, hMinus] using hDigits
  · rintro ⟨rfl, hDigits⟩
    unfold afterSign at hDigits
    split at hDigits
    · exact ⟨_, ExponentSign.plus, hDigits⟩
    · exact ⟨_, ExponentSign.minus, hDigits⟩
    · rename_i hNotMinus
      have hHead : s.head? ≠ some '-' := fun hMinus =>
        hNotMinus _ (List.eq_cons_of_mem_head? hMinus)
      rw [decide_eq_true hHead]
      exact ⟨s, ExponentSign.absent, hDigits⟩

/- The place after the sign of an exponent, if it is there. -/
def passSign (c : Cursor) : Cursor :=
  match c.rest with
  | '+' :: _ => c.next
  | '-' :: _ => c.next
  | _ => c

@[simp] theorem rest_passSign :
    (passSign c).rest = afterSign c.rest := by
  unfold passSign afterSign
  split
  · simp_all
  · simp_all
  · simp_all

/- Read an exponent after its sign, which was a plus or a minus. -/
def readUnsignedExponent
    (positive : Bool)
    (significand : Nat)
    (start : Int)
    (up : Bool) : Reader Json := fun c =>
  match c.rest with
  | [] => c.failHere .endInValue
  | d :: _ =>
      if d.isDigit then
        let digits := digitsAt c
        let (exponent, count, overflow) := absorbExponent 0 0 digits
        if overflow then
          if significand ≠ 0 ∧ up then
            (c.advance count).failHere .numberOutOfRange
          else
            .ok (signed positive 0.0, c.advance digits.length)
        else
          scaledNumber positive significand
            (if up then start + exponent else start - exponent)
            (c.advance digits.length)
      else
        c.failAhead .invalidNumber

theorem readExponent_eq
    (positive : Bool)
    (significand : Nat)
    (start : Int) :
    readExponent positive significand start c =
      readUnsignedExponent positive significand start
        (c.rest.head? ≠ some '-') (passSign c) := by
  unfold readExponent readUnsignedExponent
  simp only [decide_eq_true_eq]
  rfl

theorem accepts_readUnsignedExponent
    (positive : Bool)
    (significand : Nat)
    (start : Int)
    (up : Bool) :
    Accepts (readUnsignedExponent positive significand start up)
      fun j s t => ∃ digits, Digits digits s t ∧
        exponentValue positive significand start (some (up, digits))
          = some j := by
  intro c j t
  unfold readUnsignedExponent
  cases hRest : c.rest with
  | nil => simp
  | cons d rest =>
      simp only [digits_cons_iff]
      simp only [← hRest]
      by_cases hDigit : d.isDigit
      · simp only [hDigit, if_true, true_and]
        have hRight :
            (∃ digits, (c.rest.takeWhile Char.isDigit = digits ∧
                c.rest.dropWhile Char.isDigit = t) ∧
              exponentValue positive significand start
                (some (up, digits)) = some j) ↔
            exponentValue positive significand start
                (some (up, digitsAt c)) = some j ∧
              c.rest.dropWhile Char.isDigit = t := by
          simp [digitsAt, and_comm]
        rw [hRight]
        cases hOverflow : (absorbExponent 0 0 (digitsAt c)).2.2 with
        | true =>
            by_cases hGreat : significand ≠ 0 ∧ up = true
            · simp [exponentValue, hOverflow, hGreat]
            · simp only [exponentValue, hOverflow, hGreat, if_true,
                if_false, leaves_ok_iff, Option.some.injEq,
                Cursor.rest_advance, drop_length_digitsAt]
        | false => simp [exponentValue, hOverflow]
      · simp [hDigit]

/- An exponent is read after its letter. -/
theorem accepts_readExponent
    (positive : Bool)
    (significand : Nat)
    (start : Int) :
    Accepts (readExponent positive significand start) fun j s t =>
      ∃ up digits, (∃ u, ExponentSign up s u ∧ Digits digits u t) ∧
        exponentValue positive significand start (some (up, digits))
          = some j := by
  intro c j t
  rw [readExponent_eq,
    accepts_readUnsignedExponent positive significand start _ _ j t,
    rest_passSign]
  simp only [exponentSign_digits_iff]
  constructor
  · rintro ⟨digits, hDigits, hValue⟩
    exact ⟨_, digits, ⟨rfl, hDigits⟩, hValue⟩
  · rintro ⟨_, digits, ⟨rfl, hDigits⟩, hValue⟩
    exact ⟨digits, hDigits, hValue⟩

theorem exponent_mark_iff
    {x : Char}
    {exponent : Option (Bool × List Char)}
    (hMark : x = 'e' ∨ x = 'E') :
    Exponent exponent (x :: s) t ↔ ∃ up digits,
      (∃ u, ExponentSign up s u ∧ Digits digits u t) ∧
        some (up, digits) = exponent := by
  constructor
  · intro h
    cases h with
    | absent hLower hUpper =>
        rcases hMark with rfl | rfl
        · exact absurd rfl hLower
        · exact absurd rfl hUpper
    | present _ hSign hDigits => exact ⟨_, _, ⟨_, hSign, hDigits⟩, rfl⟩
  · rintro ⟨up, digits, ⟨u, hSign, hDigits⟩, rfl⟩
    exact Exponent.present hMark hSign hDigits

theorem exponent_absent_iff
    {exponent : Option (Bool × List Char)}
    (hLower : s.head? ≠ some 'e')
    (hUpper : s.head? ≠ some 'E') :
    Exponent exponent s t ↔ none = exponent ∧ s = t := by
  constructor
  · intro h
    cases h with
    | absent => exact ⟨rfl, rfl⟩
    | present hMark =>
        rcases hMark with rfl | rfl
        · exact absurd rfl hLower
        · exact absurd rfl hUpper
  · rintro ⟨rfl, rfl⟩
    exact Exponent.absent hLower hUpper

/- An exponent is read if there is one. -/
theorem leaves_exponent_iff
    {significand : Nat}
    {start : Int}
    {otherwise : Except ReadError (Json × Cursor)}
    {value : Option (Bool × List Char) → Option Json}
    (hWritten : ∀ exponent, value (some exponent) =
      exponentValue positive significand start (some exponent))
    (hOtherwise :
      Leaves otherwise j t ↔ value none = some j ∧ c.rest = t) :
    Leaves
        (match c.rest with
          | 'e' :: _ => readExponent positive significand start c.next
          | 'E' :: _ => readExponent positive significand start c.next
          | _ => otherwise) j t ↔
      ∃ exponent, Exponent exponent c.rest t ∧
        value exponent = some j := by
  have hMarked {x : Char} {rest : List Char}
      (hMark : x = 'e' ∨ x = 'E') (hRest : c.rest = x :: rest) :
      Leaves (readExponent positive significand start c.next) j t ↔
        ∃ exponent, Exponent exponent c.rest t ∧
          value exponent = some j := by
    rw [accepts_readExponent positive significand start c.next j t,
      Cursor.rest_next, hRest, List.tail_cons]
    simp only [exponent_mark_iff hMark]
    constructor
    · rintro ⟨up, digits, hSpelled, hValue⟩
      exact ⟨_, ⟨up, digits, hSpelled, rfl⟩, by rwa [hWritten]⟩
    · rintro ⟨_, ⟨up, digits, hSpelled, rfl⟩, hValue⟩
      exact ⟨up, digits, hSpelled, by rwa [← hWritten]⟩
  split
  · rename_i hRest
    exact hMarked (Or.inl rfl) hRest
  · rename_i hRest
    exact hMarked (Or.inr rfl) hRest
  · rename_i hNotLower hNotUpper
    rw [hOtherwise]
    simp only [exponent_absent_iff
      (fun h => hNotLower _ (List.eq_cons_of_mem_head? h))
      (fun h => hNotUpper _ (List.eq_cons_of_mem_head? h))]
    constructor
    · rintro ⟨hValue, hRest⟩
      exact ⟨_, ⟨rfl, hRest⟩, hValue⟩
    · rintro ⟨_, ⟨rfl, hRest⟩, hValue⟩
      exact ⟨hValue, hRest⟩

/- The digits after a point are read, and the exponent. -/
theorem accepts_readFraction
    (positive : Bool)
    (significand dropped : Nat) :
    Accepts (readFraction positive significand dropped) fun j s t =>
      ∃ digits u, Digits digits s u ∧ ∃ exponent, Exponent exponent u t ∧
        numberValue positive significand dropped (some digits) exponent
          = some j := by
  intro c j t
  unfold readFraction
  cases hRest : c.rest with
  | nil => simp [hRest, digitsAt]
  | cons d rest =>
      simp only [digits_cons_iff]
      simp only [← hRest]
      by_cases hDigit : d.isDigit
      · have hSome : (digitsAt c).isEmpty = false := by
          simp [digitsAt, hRest, hDigit]
        have hRight :
            (∃ digits u, (d.isDigit = true ∧
                c.rest.takeWhile Char.isDigit = digits ∧
                c.rest.dropWhile Char.isDigit = u) ∧
              ∃ exponent, Exponent exponent u t ∧
                numberValue positive significand dropped (some digits)
                  exponent = some j) ↔
            ∃ exponent,
              Exponent exponent (c.advance (digitsAt c).length).rest t ∧
                numberValue positive significand dropped
                  (some (digitsAt c)) exponent = some j := by
          rw [Cursor.rest_advance, drop_length_digitsAt]
          simp [digitsAt, hDigit]
        rw [hRight]
        simp only [hSome, Bool.false_eq_true, if_false]
        refine leaves_exponent_iff (fun _ => rfl) ?_
        exact leaves_scaledNumber_iff
      · have hNone : (digitsAt c).isEmpty = true := by
          simp [digitsAt, hRest, hDigit]
        simp [hNone, hRest, hDigit]

theorem fraction_point_iff {fraction : Option (List Char)} :
    Fraction fraction ('.' :: s) t ↔
      ∃ digits, Digits digits s t ∧ some digits = fraction := by
  constructor
  · intro h
    cases h with
    | absent hPoint => exact absurd rfl hPoint
    | present hDigits => exact ⟨_, hDigits, rfl⟩
  · rintro ⟨digits, hDigits, rfl⟩
    exact Fraction.present hDigits

theorem fraction_absent_iff
    {fraction : Option (List Char)}
    (hPoint : s.head? ≠ some '.') :
    Fraction fraction s t ↔ none = fraction ∧ s = t := by
  constructor
  · intro h
    cases h with
    | absent => exact ⟨rfl, rfl⟩
    | present => exact absurd rfl hPoint
  · rintro ⟨rfl, rfl⟩
    exact Fraction.absent hPoint

/- Without a point, at most an exponent follows the digits. -/
theorem readAfterDigits_of_no_point
    {significand dropped : Nat}
    (hPoint : c.rest.head? ≠ some '.') :
    readAfterDigits positive significand dropped c =
      match c.rest with
      | 'e' :: _ => readExponent positive significand dropped c.next
      | 'E' :: _ => readExponent positive significand dropped c.next
      | _ =>
          if dropped = 0 then
            .ok (integerValue positive significand, c)
          else
            scaledNumber positive significand dropped c := by
  unfold readAfterDigits
  split
  · simp_all
  · simp_all
  · simp_all
  · simp_all

/- What follows the digits before the point is read. -/
theorem accepts_readAfterDigits
    (positive : Bool)
    (significand dropped : Nat) :
    Accepts (readAfterDigits positive significand dropped)
      (AfterDigits positive significand dropped) := by
  intro c j t
  unfold AfterDigits
  by_cases hPoint : c.rest.head? = some '.'
  · obtain ⟨rest, hRest⟩ : ∃ rest, c.rest = '.' :: rest :=
      ⟨_, List.eq_cons_of_mem_head? hPoint⟩
    have hRead : readAfterDigits positive significand dropped c =
        readFraction positive significand dropped c.next := by
      simp [readAfterDigits, hRest]
    rw [hRead, accepts_readFraction positive significand dropped c.next j t,
      Cursor.rest_next, hRest, List.tail_cons]
    simp only [fraction_point_iff]
    constructor
    · rintro ⟨digits, u, hDigits, hValue⟩
      exact ⟨_, u, ⟨digits, hDigits, rfl⟩, hValue⟩
    · rintro ⟨_, u, ⟨digits, hDigits, rfl⟩, hValue⟩
      exact ⟨digits, u, hDigits, hValue⟩
  · have hNone : Leaves (readAfterDigits positive significand dropped c)
        j t ↔ ∃ exponent, Exponent exponent c.rest t ∧
          numberValue positive significand dropped none exponent
            = some j := by
      rw [readAfterDigits_of_no_point hPoint]
      refine leaves_exponent_iff (fun _ => rfl) ?_
      by_cases hDropped : dropped = 0
      · simp [numberValue, hDropped]
      · simp [numberValue, hDropped]
    rw [hNone]
    simp only [fraction_absent_iff hPoint]
    constructor
    · intro hValue
      exact ⟨_, _, ⟨rfl, rfl⟩, hValue⟩
    · rintro ⟨_, _, ⟨rfl, rfl⟩, hValue⟩
      exact hValue

theorem whole_zero_iff {whole : List Char} :
    Whole whole ('0' :: s) t ↔
      (∀ x ∈ s.head?, x.isDigit = false) ∧ ['0'] = whole ∧ s = t := by
  have hTake : ('0' :: s).takeWhile Char.isDigit =
      '0' :: s.takeWhile Char.isDigit := rfl
  have hDrop : ('0' :: s).dropWhile Char.isDigit =
      s.dropWhile Char.isDigit := rfl
  unfold Whole
  rw [digits_cons_iff, hTake, hDrop]
  constructor
  · rintro ⟨⟨-, rfl, rfl⟩, hAlone⟩
    have hNone : s.takeWhile Char.isDigit = [] :=
      (List.cons.inj (hAlone rfl)).2
    cases s with
    | nil => simp
    | cons x rest =>
        cases hDigit : x.isDigit with
        | true => simp [hDigit] at hNone
        | false => simp [hDigit]
  · rintro ⟨hHead, rfl, rfl⟩
    cases s with
    | nil => simp
    | cons x rest =>
        have hDigit : x.isDigit = false := hHead x rfl
        simp [hDigit]

theorem whole_cons_iff
    {d : Char}
    {whole : List Char}
    (hZero : d ≠ '0') :
    Whole whole (d :: s) t ↔ Digits whole (d :: s) t := by
  unfold Whole
  refine and_iff_left_of_imp fun hDigits hHead => absurd ?_ hZero
  rw [digits_cons_iff] at hDigits
  rcases hDigits with ⟨hDigit, rfl, -⟩
  simpa [hDigit] using hHead

/- A number is read after its sign. -/
theorem accepts_readNumber (positive : Bool) :
    Accepts (readNumber positive) (Unsigned positive) := by
  intro c j t
  unfold readNumber Unsigned
  cases hRest : c.rest with
  | nil => simp [Whole]
  | cons d rest =>
      have hTail : c.next.rest = rest := by simp [hRest]
      by_cases hZero : d = '0'
      · subst hZero
        simp only [whole_zero_iff, if_true, hTail]
        cases rest with
        | nil =>
            rw [accepts_readAfterDigits, hTail]
            constructor
            · intro h
              exact ⟨_, _, ⟨by simp, rfl, rfl⟩, h⟩
            · rintro ⟨_, _, ⟨-, rfl, rfl⟩, h⟩
              exact h
        | cons x more =>
            cases hDigit : x.isDigit with
            | true => simp [hDigit]
            | false =>
                simp only [hDigit, Bool.false_eq_true, if_false]
                rw [accepts_readAfterDigits, hTail]
                constructor
                · intro h
                  exact ⟨_, _, ⟨by simpa using hDigit, rfl, rfl⟩, h⟩
                · rintro ⟨_, _, ⟨-, rfl, rfl⟩, h⟩
                  exact h
      · by_cases hDigit : d.isDigit
        · simp only [whole_cons_iff hZero, digits_cons_iff, hZero,
            hDigit, if_true, if_false, true_and]
          rw [accepts_readAfterDigits, Cursor.rest_advance,
            drop_length_digitsAt, ← hRest]
          constructor
          · intro h
            exact ⟨_, _, ⟨rfl, rfl⟩, h⟩
          · rintro ⟨_, _, ⟨rfl, rfl⟩, h⟩
            exact h
        · simp [hZero, hDigit, whole_cons_iff hZero, digits_cons_iff]

end Numbers

end Bindery.Json

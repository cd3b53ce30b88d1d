import Bindery.Proofs.Json.MemberAcceptance
import Bindery.Proofs.Json.NumberAcceptance

/-
  This file says that values are read as the grammar has them,
  with every key once.

  Key theorems include:
    * `value_array_iff`
    * `value_object_iff`
    * `value_text_iff`
    * `accepts_readValue`
    * `not_leaves_failUnexpected`
-/

namespace Bindery.Json

variable {j : Json} {s t : List Char}

------------------------------------------------------------
-- Spellings of Scalars
------------------------------------------------------------

theorem Unsigned.isDigit_head
    {positive : Bool}
    {x : Char}
    (h : Unsigned positive j (x :: s) t) :
    x.isDigit = true := by
  rcases h with ⟨whole, u, ⟨hDigits, -⟩, -⟩
  exact isDigit_head_of_digits hDigits

@[simp] theorem not_unsigned_nil {positive : Bool} :
    ¬ Unsigned positive j [] t := by
  rintro ⟨whole, u, ⟨hDigits, -⟩, -⟩
  exact not_digits_nil hDigits

theorem Number.head
    {x : Char}
    (h : Number j (x :: s) t) :
    x = '-' ∨ x.isDigit = true := by
  cases h with
  | positive h => exact Or.inr h.isDigit_head
  | negative => exact Or.inl rfl

@[simp] theorem not_number_nil : ¬ Number j [] t := by
  rintro ⟨⟩
  rename_i h
  exact not_unsigned_nil h

@[simp] theorem not_scalar_nil : ¬ Scalar j [] t := by
  rintro ⟨⟩
  rename_i h
  exact not_number_nil h

/- What a scalar is can be told from its first character. -/
theorem scalar_n_iff :
    Scalar j ('n' :: s) t ↔ s = 'u' :: 'l' :: 'l' :: t ∧ .null = j := by
  constructor
  · intro h
    cases h with
    | null => exact ⟨rfl, rfl⟩
    | number h => exact absurd h.head (by decide)
  · rintro ⟨rfl, rfl⟩
    exact Scalar.null

theorem scalar_t_iff :
    Scalar j ('t' :: s) t ↔
      s = 'r' :: 'u' :: 'e' :: t ∧ .bool true = j := by
  constructor
  · intro h
    cases h with
    | yes => exact ⟨rfl, rfl⟩
    | number h => exact absurd h.head (by decide)
  · rintro ⟨rfl, rfl⟩
    exact Scalar.yes

theorem scalar_f_iff :
    Scalar j ('f' :: s) t ↔
      s = 'a' :: 'l' :: 's' :: 'e' :: t ∧ .bool false = j := by
  constructor
  · intro h
    cases h with
    | no => exact ⟨rfl, rfl⟩
    | number h => exact absurd h.head (by decide)
  · rintro ⟨rfl, rfl⟩
    exact Scalar.no

theorem scalar_quote_iff :
    Scalar j ('"' :: s) t ↔
      ∃ chars, Quoted chars s t ∧ .text (String.ofList chars) = j := by
  constructor
  · intro h
    cases h with
    | number h => exact absurd h.head (by decide)
    | text h => exact ⟨_, h, rfl⟩
  · rintro ⟨chars, h, rfl⟩
    exact Scalar.text h

theorem scalar_minus_iff :
    Scalar j ('-' :: s) t ↔ Unsigned false j s t := by
  constructor
  · intro h
    cases h with
    | number h =>
        cases h with
        | positive h => exact absurd h.isDigit_head (by decide)
        | negative h => exact h
  · intro h
    exact Scalar.number (Number.negative h)

theorem scalar_digit_iff
    {d : Char}
    (hDigit : d.isDigit = true) :
    Scalar j (d :: s) t ↔ Unsigned true j (d :: s) t := by
  constructor
  · intro h
    cases h with
    | null => exact absurd hDigit (by decide)
    | yes => exact absurd hDigit (by decide)
    | no => exact absurd hDigit (by decide)
    | text => exact absurd hDigit (by decide)
    | number h =>
        cases h with
        | positive h => exact h
        | negative h => exact absurd hDigit (by decide)
  · intro h
    exact Scalar.number (Number.positive h)

/- The characters that a scalar may start with. -/
theorem Scalar.head
    {x : Char}
    (h : Scalar j (x :: s) t) :
    x ∈ ['n', 't', 'f', '-', '"'] ∨ x.isDigit = true := by
  cases h with
  | null => simp
  | yes => simp
  | no => simp
  | number h => exact h.head.imp (by rintro rfl; simp) id
  | text => simp

theorem accepts_readWord (word : List Char) :
    Accepts (readWord word) fun _ s t => s = word ++ t := by
  induction word with
  | nil =>
      intro c _ t
      simp [readWord]
  | cons x word ih =>
      intro c a t
      unfold readWord
      cases hRest : c.rest with
      | nil => simp
      | cons y rest =>
          by_cases hSame : x = y
          · simp [hSame, ih c.next a t, hRest]
          · simp [hSame, Ne.symm hSame]

theorem leaves_word_iff
    {word : List Char}
    {value : Json}
    {c : Cursor} :
    Leaves (do
        let (_, c) ← readWord word c
        .ok (value, c)) j t ↔
      c.rest = word ++ t ∧ value = j := by
  rw [leaves_bind_iff_of_skips (accepts_readWord word)
    (p := fun u => value = j ∧ u = t) fun _ _ => leaves_ok_iff]
  constructor
  · rintro ⟨u, hWord, hValue, rfl⟩
    exact ⟨hWord, hValue⟩
  · rintro ⟨hWord, hValue⟩
    exact ⟨t, hWord, hValue, rfl⟩

theorem leaves_quoted_iff {c : Cursor} :
    Leaves (do
        let (value, c) ← readString c
        .ok (.text value, c)) j t ↔
      ∃ chars, Quoted chars c.rest t ∧
        .text (String.ofList chars) = j := by
  rw [leaves_bind_iff_of_accepts accepts_readString
    (p := fun value u => .text value = j ∧ u = t)
    fun _ _ _ => leaves_ok_iff]
  constructor
  · rintro ⟨_, u, ⟨chars, hChars, rfl⟩, hText, rfl⟩
    exact ⟨chars, hChars, hText⟩
  · rintro ⟨chars, hChars, hText⟩
    exact ⟨_, t, ⟨chars, hChars, rfl⟩, hText, rfl⟩

/- A value that is no list and no object is read at any depth. -/
theorem leaves_readValue_scalar_iff
    {depth : Nat}
    {c : Cursor}
    (hBracket : (afterGap c.rest).head? ≠ some '[')
    (hBrace : (afterGap c.rest).head? ≠ some '{') :
    Leaves (readValue depth c) j t ↔ Scalar j (afterGap c.rest) t := by
  unfold readValue
  cases hGap : afterGap c.rest with
  | nil => simp [hGap]
  | cons x rest =>
      have hTail : c.skipBlanks.next.rest = rest := by simp [hGap]
      have hNotBracket : x ≠ '[' := by simpa [hGap] using hBracket
      have hNotBrace : x ≠ '{' := by simpa [hGap] using hBrace
      simp only [Cursor.rest_skipBlanks, hGap, hNotBracket, hNotBrace,
        if_false]
      split_ifs with hN hT hF hMinus hDigit hQuote
      · rw [leaves_word_iff, hTail, hN, scalar_n_iff]
        rfl
      · rw [leaves_word_iff, hTail, hT, scalar_t_iff]
        rfl
      · rw [leaves_word_iff, hTail, hF, scalar_f_iff]
        rfl
      · rw [accepts_readNumber, hTail, hMinus, scalar_minus_iff]
      · rw [accepts_readNumber, Cursor.rest_skipBlanks, hGap,
          scalar_digit_iff hDigit]
      · rw [leaves_quoted_iff, hTail, hQuote, scalar_quote_iff]
      · simp only [not_leaves_failAhead, false_iff]
        intro h
        have hHead := h.head
        simp [hN, hT, hF, hMinus, hDigit, hQuote] at hHead

------------------------------------------------------------
-- Spellings of Values
------------------------------------------------------------

/- An integer that is kept as one, or a floating-point number. -/
inductive IsNumber : Json → Prop
| int {n} : fits n = true → IsNumber (.int n)
| float {x} : IsNumber (.float x)

/- Digits are only gathered while there is room for them. -/
theorem absorb_lt
    {n : Nat}
    (digits : List Char)
    (h : n < 0x10000000000000000) :
    (absorb n digits).1 < 0x10000000000000000 := by
  induction digits generalizing n with
  | nil => exact h
  | cons d rest ih =>
      unfold absorb
      split
      · rename_i hRoom
        exact ih hRoom
      · exact h

theorem isNumber_of_scaledValue
    {positive : Bool}
    {significand : Nat}
    {exponent : Int}
    (h : scaledValue positive significand exponent = some j) :
    IsNumber j := by
  unfold scaledValue at h
  split at h
  · obtain rfl := Option.some.inj h
    exact IsNumber.float
  · simp at h

theorem isNumber_of_exponentValue
    {positive : Bool}
    {significand : Nat}
    {start : Int}
    {exponent : Option (Bool × List Char)}
    (h : exponentValue positive significand start exponent = some j) :
    IsNumber j := by
  unfold exponentValue at h
  split at h
  · exact isNumber_of_scaledValue h
  · simp only at h
    split at h
    · split at h
      · simp at h
      · obtain rfl := Option.some.inj h
        exact IsNumber.float
    · exact isNumber_of_scaledValue h

theorem isNumber_integerValue
    {n : Nat}
    (positive : Bool)
    (h : n < 0x10000000000000000) :
    IsNumber (integerValue positive n) := by
  unfold integerValue
  split
  · apply IsNumber.int
    simp only [fits, Bool.and_eq_true, decide_eq_true_eq]
    omega
  · split
    · exact IsNumber.float
    · rename_i hRange
      apply IsNumber.int
      simp only [fits, Bool.and_eq_true, decide_eq_true_eq]
      omega

/- A spelled number is an integer or a floating-point number. -/
theorem Number.isNumber (h : Number j s t) : IsNumber j := by
  have hUnsigned {positive : Bool} {s : List Char} :
      Unsigned positive j s t → IsNumber j := by
    rintro ⟨whole, u, -, fraction, v, -, exponent, -, hValue⟩
    unfold numberValue at hValue
    split at hValue
    · split at hValue
      · obtain rfl := Option.some.inj hValue
        exact isNumber_integerValue _ (absorb_lt _ (by decide))
      · exact isNumber_of_scaledValue hValue
    · exact isNumber_of_exponentValue hValue
    · exact isNumber_of_exponentValue hValue
  cases h with
  | positive h => exact hUnsigned h
  | negative h => exact hUnsigned h

theorem Scalar.settle_eq (h : Scalar j s t) : settle j = j := by
  cases h with
  | null => rfl
  | yes => rfl
  | no => rfl
  | number h =>
      cases h.isNumber with
      | int _ => rfl
      | float => rfl
  | text => rfl

/- How a text, an array and an object are spelled. -/
theorem value_text_iff
    {depth : Nat}
    {value : String} :
    Value depth (.text value) s t ↔ ∃ u, s = '"' :: u ∧
      ∃ chars, Quoted chars u t ∧ String.ofList chars = value := by
  have hScalar : Scalar (.text value) s t ↔ ∃ u, s = '"' :: u ∧
      ∃ chars, Quoted chars u t ∧ String.ofList chars = value := by
    constructor
    · intro h
      cases h with
      | number h => cases h.isNumber
      | text h => exact ⟨_, rfl, _, h, rfl⟩
    · rintro ⟨u, rfl, chars, h, rfl⟩
      exact Scalar.text h
  cases depth with
  | zero => exact hScalar
  | succ depth =>
      rw [← hScalar]
      constructor
      · intro h
        cases h with
        | scalar h => exact h
      · exact Nested.scalar

theorem value_array_iff
    {depth : Nat}
    {items : List Json} :
    Value (depth + 1) (.array items) s t ↔ ∃ u, s = '[' :: u ∧
      Elements ']' (Value depth) items u t := by
  constructor
  · intro h
    cases h with
    | scalar h =>
        cases h with
        | number h => cases h.isNumber
    | array h => exact ⟨_, rfl, h⟩
  · rintro ⟨u, rfl, h⟩
    exact Nested.array h

theorem value_object_iff
    {depth : Nat}
    {members : List (String × Json)} :
    Value (depth + 1) (.object members) s t ↔ ∃ u, s = '{' :: u ∧
      Elements '}' (Member (Value depth)) members u t := by
  constructor
  · intro h
    cases h with
    | scalar h =>
        cases h with
        | number h => cases h.isNumber
    | object h => exact ⟨_, rfl, h⟩
  · rintro ⟨u, rfl, h⟩
    exact Nested.object h

/- An opening bracket starts an array and nothing else. -/
theorem value_bracket_iff {depth : Nat} :
    Value (depth + 1) j ('[' :: s) t ↔
      ∃ items, Elements ']' (Value depth) items s t ∧
        .array items = j := by
  constructor
  · intro h
    cases h with
    | scalar h => exact absurd h.head (by decide)
    | array h => exact ⟨_, h, rfl⟩
  · rintro ⟨items, h, rfl⟩
    exact Nested.array h

theorem value_brace_iff {depth : Nat} :
    Value (depth + 1) j ('{' :: s) t ↔
      ∃ members, Elements '}' (Member (Value depth)) members s t ∧
        .object members = j := by
  constructor
  · intro h
    cases h with
    | scalar h => exact absurd h.head (by decide)
    | object h => exact ⟨_, h, rfl⟩
  · rintro ⟨members, h, rfl⟩
    exact Nested.object h

/- All other values are scalars. -/
theorem value_scalar_iff
    {depth : Nat}
    (hBracket : s.head? ≠ some '[')
    (hBrace : s.head? ≠ some '{') :
    Value depth j s t ↔ Scalar j s t := by
  cases depth with
  | zero => exact Iff.rfl
  | succ depth =>
      constructor
      · intro h
        cases h with
        | scalar h => exact h
        | array => exact absurd rfl hBracket
        | object => exact absurd rfl hBrace
      · exact Nested.scalar

------------------------------------------------------------
-- Lengths
------------------------------------------------------------

theorem Digits.length_lt
    {digits : List Char}
    (h : Digits digits s t) :
    t.length < s.length := by
  rcases h with ⟨hSome, rfl, rfl⟩
  cases s with
  | nil => exact absurd rfl hSome
  | cons d rest =>
      by_cases hDigit : d.isDigit
      · have hLe : (rest.dropWhile Char.isDigit).length ≤ rest.length :=
          (List.dropWhile_sublist _).length_le
        simpa [hDigit] using Nat.lt_succ_of_le hLe
      · simp [hDigit] at hSome

theorem Fraction.length_le
    {fraction : Option (List Char)}
    (h : Fraction fraction s t) :
    t.length ≤ s.length := by
  cases h with
  | absent => exact Nat.le_refl _
  | present hDigits => exact Nat.le_succ_of_le hDigits.length_lt.le

theorem Exponent.length_le
    {exponent : Option (Bool × List Char)}
    (h : Exponent exponent s t) :
    t.length ≤ s.length := by
  cases h with
  | absent => exact Nat.le_refl _
  | present _ hSign hDigits =>
      have hShort := hDigits.length_lt
      cases hSign with
      | plus => simp; omega
      | minus => simp; omega
      | absent => simp; omega

theorem Number.length_lt (h : Number j s t) : t.length < s.length := by
  have hUnsigned {positive : Bool} {s : List Char} :
      Unsigned positive j s t → t.length < s.length := by
    rintro ⟨whole, u, ⟨hWhole, -⟩, fraction, v, hFraction, exponent,
      hExponent, -⟩
    have hFirst := hWhole.length_lt
    have hSecond := hFraction.length_le
    have hThird := hExponent.length_le
    omega
  cases h with
  | positive h => exact hUnsigned h
  | negative h => exact Nat.lt_succ_of_lt (hUnsigned h)

theorem Scalar.length_lt (h : Scalar j s t) : t.length < s.length := by
  cases h with
  | null => simp; omega
  | yes => simp; omega
  | no => simp; omega
  | number h => exact h.length_lt
  | text h => exact Nat.lt_succ_of_lt h.length_lt

theorem Member.length_lt
    {spelling : Spelling Json}
    (hSpelling : ∀ {j s t}, spelling j s t → t.length < s.length)
    {member : String × Json}
    (h : Member spelling member s t) :
    t.length < s.length := by
  cases h with
  | mk hChars hValue =>
      cases hValue with
      | @mk a s u t hColon hValue =>
          have hFirst := hChars.length_lt
          have hSecond := length_lt_of_afterGap_eq hColon
          have hThird := length_afterGap_le u
          have hFourth := hSpelling hValue
          simp only [List.length_cons]
          omega

/- The value of a member is spelled in it. -/
theorem Member.exists_value
    {spelling : Spelling Json}
    {member : String × Json}
    (h : Member spelling member s t) :
    ∃ u v, spelling member.2 u v := by
  cases h with
  | mk _ hValue =>
      cases hValue with
      | mk _ hValue => exact ⟨_, _, hValue⟩

/- A value is not empty. -/
theorem Value.length_lt
    {depth : Nat}
    (h : Value depth j s t) :
    t.length < s.length := by
  induction depth generalizing j s t with
  | zero => exact Scalar.length_lt h
  | succ depth ih =>
      cases h with
      | scalar h => exact h.length_lt
      | array h => exact Nat.lt_succ_of_lt (h.length_lt ih)
      | object h =>
          exact Nat.lt_succ_of_lt
            (h.length_lt fun h => Member.length_lt ih h)

/- A value can be told from the end of a list. -/
theorem separable_value (depth : Nat) :
    Separable ']' (Value depth) where
  length_lt := Value.length_lt
  head_ne := by
    rintro j x s t h rfl
    rw [value_scalar_iff (by simp) (by simp)] at h
    exact absurd h.head (by decide)

------------------------------------------------------------
-- Values
------------------------------------------------------------

section Nesting

variable {depth : Nat} {c : Cursor}

theorem readValue_bracket (hGap : afterGap c.rest = '[' :: s) :
    readValue (depth + 1) c = (do
      let (items, c) ←
        readSequence (readValue depth) c.skipBlanks.next
      .ok (.array items, c)) := by
  rw [readValue]
  simp only [Cursor.rest_skipBlanks, hGap]
  rfl

/- A member of an object whose keys are each kept once. -/
def readMember
    (depth : Nat)
    (members : List (String × Json))
    (key : String) : Reader (List (String × Json)) := fun c => do
  let (_, c) ← readColon c
  let (value, c) ← readValue depth c
  .ok (Keyed.put key value members, c)

theorem readValue_brace (hGap : afterGap c.rest = '{' :: s) :
    readValue (depth + 1) c = (do
      let (members, c) ←
        foldMembers (readMember depth) [] c.skipBlanks.next
      .ok (.object members, c.next)) := by
  rw [readValue]
  simp only [Cursor.rest_skipBlanks, hGap]
  rfl

/- What is made of a value that is read after a colon. -/
theorem leaves_colon_iff
    {α β σ : Type}
    {read : Reader α}
    {decode : β → Option α}
    {spelling : Spelling β}
    {after : σ}
    (make : α → σ)
    (hRead : Accepts read (Spaced (Decoded decode spelling))) :
    Leaves (do
        let (_, c) ← readColon c
        let (value, c) ← read c
        .ok (make value, c)) after t ↔
      Decoded (fun raw => (decode raw).map make) (AfterColon spelling)
        after c.rest t := by
  rw [leaves_bind_iff_of_skips accepts_readColon
    (p := fun s => ∃ value u,
      Spaced (Decoded decode spelling) value s u ∧
        make value = after ∧ u = t)
    fun _ _ => leaves_bind_iff_of_accepts hRead
      fun _ _ _ => leaves_ok_iff]
  constructor
  · rintro ⟨u, hColon, value, _, ⟨raw, hRaw, hDecode⟩, rfl, rfl⟩
    exact ⟨raw, AfterColon.mk hColon hRaw, by simp [hDecode]⟩
  · rintro ⟨raw, ⟨hColon, hRaw⟩, hDecode⟩
    rcases Option.map_eq_some_iff.mp hDecode with ⟨value, hValue, rfl⟩
    exact ⟨_, hColon, value, t, ⟨raw, hRaw, hValue⟩, rfl, rfl⟩

end Nesting

/- Members that are read and put one after the other. -/
theorem takes_put_iff
    {members entries after : List (String × Json)} :
    Takes
        (fun entries key raw =>
          some (Keyed.put key (settle raw) entries))
        members entries after ↔
      Keyed.putAll (settleMembers members) entries = after := by
  induction members generalizing entries with
  | nil => simp [settleMembers]
  | cons member rest ih =>
      rw [takes_cons_iff]
      simp [ih, settleMembers]

section Kinds

variable {depth : Nat} {c : Cursor}

/- The value that is read is the settled one. -/
def Settled (depth : Nat) : Spelling Json :=
  Decoded (fun raw => some (settle raw)) (Value depth)

theorem settled_iff :
    Settled depth j s t ↔
      ∃ raw, Value depth raw s t ∧ settle raw = j := by
  simp [Settled, Decoded]

theorem leaves_scalar_iff_settled
    (hBracket : (afterGap c.rest).head? ≠ some '[')
    (hBrace : (afterGap c.rest).head? ≠ some '{') :
    Leaves (readValue depth c) j t ↔
      Settled depth j (afterGap c.rest) t := by
  rw [leaves_readValue_scalar_iff hBracket hBrace, settled_iff]
  simp only [value_scalar_iff hBracket hBrace]
  constructor
  · intro h
    exact ⟨j, h, h.settle_eq⟩
  · rintro ⟨raw, h, rfl⟩
    rwa [h.settle_eq]

theorem mapM_some_iff
    {α β : Type}
    {f : α → β}
    {xs : List α}
    {ys : List β} :
    xs.mapM (fun x => some (f x)) = some ys ↔ xs.map f = ys := by
  rw [show xs.mapM (fun x => some (f x)) = some (xs.map f) from
    List.mapM_pure, Option.some.injEq]

theorem leaves_array_iff_settled
    (hRead : Accepts (readValue depth) (Spaced (Settled depth)))
    (hGap : afterGap c.rest = '[' :: s) :
    Leaves (readValue (depth + 1) c) j t ↔
      Settled (depth + 1) j ('[' :: s) t := by
  have hItems := accepts_readSequence hRead
    (separable_value depth).decoded
  rw [readValue_bracket hGap, leaves_bind_iff_of_accepts hItems
    (p := fun items u => .array items = j ∧ u = t)
    fun _ _ _ => leaves_ok_iff, Cursor.rest_next,
    Cursor.rest_skipBlanks, hGap, List.tail_cons, settled_iff]
  constructor
  · rintro ⟨items, _, hElements, rfl, rfl⟩
    rcases elements_decoded_iff.mp hElements with
      ⟨raws, hRaws, hSettle⟩
    exact ⟨.array raws, Nested.array hRaws, by
      rw [settle_array, mapM_some_iff.mp hSettle]⟩
  · rintro ⟨raw, hRaw, rfl⟩
    rcases value_bracket_iff.mp hRaw with ⟨raws, hRaws, rfl⟩
    exact ⟨raws.map settle, t,
      elements_decoded_iff.mpr ⟨raws, hRaws, mapM_some_iff.mpr rfl⟩,
      (settle_array raws).symm, rfl⟩

theorem accepts_readMember
    (hRead : Accepts (readValue depth) (Spaced (Settled depth)))
    (entries : List (String × Json))
    (key : String) :
    Accepts (readMember depth entries key)
      (Step (Value depth)
        (fun entries key raw =>
          some (Keyed.put key (settle raw) entries))
        entries key) :=
  fun _ _ _ =>
    leaves_colon_iff (fun value => Keyed.put key value entries) hRead

theorem leaves_object_iff_settled
    (hRead : Accepts (readValue depth) (Spaced (Settled depth)))
    (hGap : afterGap c.rest = '{' :: s) :
    Leaves (readValue (depth + 1) c) j t ↔
      Settled (depth + 1) j ('{' :: s) t := by
  have hMembers := accepts_foldMembers (accepts_readMember hRead)
    Value.length_lt []
  rw [readValue_brace hGap, leaves_bind_iff_of_accepts hMembers
    (p := fun members u => .object members = j ∧ u.tail = t)
    fun _ _ _ => by simp, Cursor.rest_next,
    Cursor.rest_skipBlanks, hGap, List.tail_cons, settled_iff]
  constructor
  · rintro ⟨entries, _, ⟨raws, u, hRaws, hTakes, rfl⟩, rfl, rfl⟩
    exact ⟨.object raws, Nested.object hRaws, by
      rw [settle_object, takes_put_iff.mp hTakes]⟩
  · rintro ⟨raw, hRaw, rfl⟩
    rcases value_brace_iff.mp hRaw with ⟨raws, hRaws, rfl⟩
    exact ⟨_, _, ⟨raws, t, hRaws, takes_put_iff.mpr rfl, rfl⟩,
      (settle_object raws).symm, rfl⟩

/- Where nothing may be nested, brackets and braces are refused. -/
theorem not_leaves_nested
    (hNested : (afterGap c.rest).head? = some '[' ∨
      (afterGap c.rest).head? = some '{') :
    ¬ Leaves (readValue 0 c) j t := by
  rw [readValue]
  rcases hNested with hHead | hHead
  · rw [Cursor.rest_skipBlanks, List.eq_cons_of_mem_head? hHead]
    exact not_leaves_failAhead
  · rw [Cursor.rest_skipBlanks, List.eq_cons_of_mem_head? hHead]
    exact not_leaves_failAhead

end Kinds

/- A value is read as it is spelled, with every key once. -/
theorem accepts_readValue (depth : Nat) :
    Accepts (readValue depth) (Spaced (Settled depth)) := by
  have hHead (c : Cursor) (x : Char) :
      (afterGap c.rest).head? = some x →
        ∃ s, afterGap c.rest = x :: s :=
    fun h => ⟨_, List.eq_cons_of_mem_head? h⟩
  induction depth with
  | zero =>
      intro c j t
      by_cases hNested : (afterGap c.rest).head? = some '[' ∨
          (afterGap c.rest).head? = some '{'
      · refine iff_of_false (not_leaves_nested hNested) ?_
        rintro ⟨raw, hRaw : Scalar raw (afterGap c.rest) t, -⟩
        rcases hNested with h | h
        · rw [List.eq_cons_of_mem_head? h] at hRaw
          exact absurd hRaw.head (by decide)
        · rw [List.eq_cons_of_mem_head? h] at hRaw
          exact absurd hRaw.head (by decide)
      · rcases not_or.mp hNested with ⟨hBracket, hBrace⟩
        exact leaves_scalar_iff_settled hBracket hBrace
  | succ depth ih =>
      intro c j t
      unfold Spaced
      by_cases hBracket : (afterGap c.rest).head? = some '['
      · rcases hHead c '[' hBracket with ⟨s, hGap⟩
        rw [leaves_array_iff_settled ih hGap, hGap]
      · by_cases hBrace : (afterGap c.rest).head? = some '{'
        · rcases hHead c '{' hBrace with ⟨s, hGap⟩
          rw [leaves_object_iff_settled ih hGap, hGap]
        · exact leaves_scalar_iff_settled hBracket hBrace

/- Where another kind is expected, reading fails. -/
@[simp] theorem not_leaves_failUnexpected
    {α : Type}
    {a : α}
    {expected : String}
    {c : Cursor} :
    ¬ Leaves (failUnexpected expected c) a t := by
  unfold failUnexpected
  split
  · exact not_leaves_failHere
  · exact not_leaves_failHere
  · split
    · exact not_leaves_failHere
    · exact not_leaves_error

end Bindery.Json

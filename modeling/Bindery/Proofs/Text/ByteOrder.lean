import Mathlib.Data.List.Basic

/-
  This file says that texts are in the same order as their bytes
  in UTF-8.

  Key definitions include:
    * `bytes`
    * `spread`
    * `furtherBytes`

  Key theorems include:
    * `encode_eq_spread`
    * `encode_append_lt`
    * `bytes_lt_iff`
-/

namespace Bindery.Text

/- The bytes of a text in UTF-8. -/
def bytes (text : String) : List UInt8 :=
  text.toUTF8.data.toList

/- The bytes of a text are those of its characters. -/
theorem bytes_eq_flatMap (text : String) :
    bytes text = text.toList.flatMap String.utf8EncodeChar := by
  have hBytes : (String.ofList text.toList).toByteArray =
      text.toList.utf8Encode := String.toByteArray_ofList
  rw [String.ofList_toList] at hBytes
  rw [bytes, String.toUTF8_eq_toByteArray, hBytes, List.utf8Encode]
  simp

------------------------------------------------------------
-- Numbers as Bytes
------------------------------------------------------------

section Numbers

variable {m n offset count : Nat}

theorem ofNat_lt
    (h : m < n)
    (hByte : n < 256) :
    UInt8.ofNat m < UInt8.ofNat n := by
  rw [UInt8.lt_iff_toNat_lt, UInt8.toNat_ofNat', UInt8.toNat_ofNat']
  omega

/-
  Write a number as a byte from an offset on, and then `count`
  bytes of six bits each.
-/
def spread (offset : Nat) : Nat → Nat → List UInt8
| 0, v => [UInt8.ofNat (v + offset)]
| count + 1, v =>
    spread offset count (v / 64) ++ [UInt8.ofNat (v % 64 + 128)]

/- What is left of a number for the first byte. -/
def highBits : Nat → Nat → Nat
| 0, v => v
| count + 1, v => highBits count (v / 64)

theorem exists_spread_eq_cons (offset count v : Nat) :
    ∃ rest, spread offset count v =
      UInt8.ofNat (highBits count v + offset) :: rest := by
  induction count generalizing v with
  | zero => exact ⟨[], rfl⟩
  | succ count ih =>
      rcases ih (v / 64) with ⟨rest, hRest⟩
      exact ⟨_, by rw [spread, hRest, highBits, List.cons_append]⟩

/- Numbers written in two ways are told apart by their first bytes. -/
theorem spread_append_lt_of_highBits
    {other further : Nat}
    (hLess : highBits count m + offset < highBits further n + other)
    (hByte : highBits further n + other < 256)
    (s t : List UInt8) :
    spread offset count m ++ s < spread other further n ++ t := by
  rcases exists_spread_eq_cons offset count m with ⟨front, hFront⟩
  rcases exists_spread_eq_cons other further n with ⟨back, hBack⟩
  rw [hFront, hBack]
  exact List.cons_lt_cons_iff.mpr (Or.inl (ofNat_lt hLess hByte))

/- Numbers written in one way keep their order. -/
theorem spread_append_lt
    (hLess : m < n)
    (hByte : highBits count n + offset < 256)
    (s t : List UInt8) :
    spread offset count m ++ s < spread offset count n ++ t := by
  induction count generalizing m n s t with
  | zero =>
      exact List.cons_lt_cons_iff.mpr
        (Or.inl (ofNat_lt (Nat.add_lt_add_right hLess offset) hByte))
  | succ count ih =>
      simp only [spread, List.append_assoc, List.singleton_append]
      by_cases hHigh : m / 64 < n / 64
      · exact ih hHigh hByte _ _
      · have hSame : m / 64 = n / 64 := by omega
        have hLow : m % 64 + 128 < n % 64 + 128 := by omega
        rw [hSame]
        exact List.append_left_lt (List.cons_lt_cons_iff.mpr
          (Or.inl (ofNat_lt hLow (by omega))))

end Numbers

------------------------------------------------------------
-- Characters as Bytes
------------------------------------------------------------

section Characters

variable {c d : Char}

/- The number of bytes after the first one of a character. -/
def furtherBytes (v : Nat) : Nat :=
  if v < 0x80 then 0
  else if v < 0x800 then 1
  else if v < 0x10000 then 2
  else 3

/- Where the first bytes of characters of a length begin. -/
def firstByte : Nat → Nat
| 0 => 0
| 1 => 0xC0
| 2 => 0xE0
| _ => 0xF0

theorem val_lt (c : Char) : c.val.toNat < 0x110000 := by
  rcases c.valid with h | h
  · exact Nat.lt_trans h (by decide)
  · exact h.2

/- Characters are written in the way of their length. -/
theorem encode_eq_spread (c : Char) :
    String.utf8EncodeChar c =
      spread (firstByte (furtherBytes c.val.toNat))
        (furtherBytes c.val.toNat) c.val.toNat := by
  have hLimit := val_lt c
  simp only [String.utf8EncodeChar, furtherBytes]
  -- Numbers of a length fit into its first byte, so that taking
  -- them modulo the bits of that byte does not change them.
  generalize c.val.toNat = v at hLimit
  by_cases hOne : v < 0x80
  · rw [if_pos (by omega), if_pos hOne]
    rfl
  rw [if_neg (by omega), if_neg hOne]
  by_cases hTwo : v < 0x800
  · have hHigh : v / 64 % 0x20 = v / 64 := by omega
    rw [if_pos (by omega), if_pos hTwo, hHigh]
    rfl
  rw [if_neg (by omega), if_neg hTwo]
  by_cases hThree : v < 0x10000
  · have hHigh : v / 4096 % 0x10 = v / 64 / 64 := by omega
    rw [if_pos (by omega), if_pos hThree, hHigh]
    rfl
  · have hHigh : v / 262144 % 0x08 = v / 64 / 64 / 64 := by omega
    have hNext : v / 4096 = v / 64 / 64 := by omega
    rw [if_neg (by omega), if_neg hThree, hHigh, hNext]
    rfl

/- A longer character has the greater first byte. -/
theorem firstByte_lt
    {m n : Nat}
    (hLess : m < n)
    (hLimit : n < 0x110000) :
    highBits (furtherBytes n) n + firstByte (furtherBytes n) < 256 ∧
      (furtherBytes m ≠ furtherBytes n →
        highBits (furtherBytes m) m + firstByte (furtherBytes m) <
          highBits (furtherBytes n) n + firstByte (furtherBytes n)) := by
  unfold furtherBytes
  split_ifs <;> simp only [firstByte, highBits] <;> omega

/- A smaller character is written with smaller bytes. -/
theorem encode_append_lt
    (hLess : c < d)
    (s t : List UInt8) :
    String.utf8EncodeChar c ++ s < String.utf8EncodeChar d ++ t := by
  have hVal : c.val.toNat < d.val.toNat := hLess
  have hFirst := firstByte_lt hVal (val_lt d)
  rw [encode_eq_spread, encode_eq_spread]
  by_cases hSame : furtherBytes c.val.toNat = furtherBytes d.val.toNat
  · rw [hSame]
    exact spread_append_lt hVal hFirst.1 s t
  · exact spread_append_lt_of_highBits (hFirst.2 hSame) hFirst.1 s t

/- Characters keep their order when they are written as bytes. -/
theorem flatMap_encode_lt
    {first second : List Char}
    (h : first < second) :
    first.flatMap String.utf8EncodeChar <
      second.flatMap String.utf8EncodeChar := by
  induction h with
  | @nil d rest =>
      rcases List.exists_cons_of_ne_nil
        (String.utf8EncodeChar_ne_nil (c := d)) with ⟨b, bytes, hBytes⟩
      rw [List.flatMap_nil, List.flatMap_cons, hBytes]
      exact List.nil_lt_cons _ _
  | rel hLess => exact encode_append_lt hLess _ _
  | cons _ ih => exact List.append_left_lt ih

end Characters

/- Texts are in the order of their bytes. -/
theorem bytes_lt_iff {first second : String} :
    bytes first < bytes second ↔ first < second := by
  rw [bytes_eq_flatMap, bytes_eq_flatMap]
  constructor
  · intro hBytes
    by_contra hNot
    rcases Decidable.eq_or_ne first second with rfl | hNe
    · exact List.lt_irrefl _ hBytes
    · have hGreater : second < first := String.not_le.mp
        fun hLe => hNe (String.le_antisymm hLe (String.not_lt.mp hNot))
      exact List.lt_asymm hBytes (flatMap_encode_lt hGreater)
  · exact flatMap_encode_lt

end Bindery.Text

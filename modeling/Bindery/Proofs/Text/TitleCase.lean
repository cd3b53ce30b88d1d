import Bindery.Text.LetterCase
import Mathlib.Data.List.Basic

/-
  This file says which texts are the same in title case: those
  with the same marks between their words, and the same words but
  for the letter case of these.

  Key definitions include:
    * `endsWord`
    * `capitalized`
    * `SameWords`

  Key theorems include:
    * `filter_titleFrom`
    * `splitOnP_titleFrom`
    * `title_eq_iff`
    * `title_eq_iff_of_ascii`
-/

namespace Bindery.Text

open LetterCase

------------------------------------------------------------
-- Words
------------------------------------------------------------

/- Whether a character ends a word. -/
def endsWord (c : Char) : Bool :=
  isAsciiPunctuation c || isBlank c

/- A word with a capital at its start and small letters after it. -/
def capitalized : List Char → List Char
| [] => []
| c :: rest => upperChar c ++ rest.flatMap lowerChar

/-
  Whether two texts have the same marks that end words, and the
  same words between these once all words are capitalized.
-/
structure SameWords (first second : List Char) : Prop where
  marks : first.filter endsWord = second.filter endsWord
  words : (first.splitOnP endsWord).map capitalized =
    (second.splitOnP endsWord).map capitalized

instance (first second : List Char) :
    Decidable (SameWords first second) :=
  decidable_of_iff
    (first.filter endsWord = second.filter endsWord ∧
      (first.splitOnP endsWord).map capitalized =
        (second.splitOnP endsWord).map capitalized)
    ⟨fun h => ⟨h.1, h.2⟩, fun h => ⟨h.marks, h.words⟩⟩

/- Two texts with the same marks and parts are the same. -/
theorem eq_of_splitOnP_eq
    {α : Type}
    {p : α → Bool}
    {first second : List α}
    (hMarks : first.filter p = second.filter p)
    (hParts : first.splitOnP p = second.splitOnP p) :
    first = second := by
  rw [← List.splitOnP_spec (p := p) first, hMarks, hParts,
    List.splitOnP_spec]

/- What has no marks goes to the first part. -/
theorem splitOnP_append_of_forall
    {α : Type}
    {p : α → Bool}
    {front : List α}
    (h : ∀ a ∈ front, p a = false)
    {rest word : List α}
    {others : List (List α)}
    (hRest : rest.splitOnP p = word :: others) :
    (front ++ rest).splitOnP p = (front ++ word) :: others := by
  induction front with
  | nil => exact hRest
  | cons a front ih =>
      rcases List.forall_mem_cons.mp h with ⟨hFirst, hFront⟩
      rw [List.cons_append, List.splitOnP_cons_eq_if_modifyHead,
        if_neg (by simp [hFirst]), ih hFront]
      rfl

------------------------------------------------------------
-- Letter Case and Marks
------------------------------------------------------------

section Marks

variable {c d : Char}

/- What holds of 128 characters holds of every ASCII character. -/
theorem forall_ascii
    (holds : Char → Prop)
    (h : ∀ n < 128, holds (Char.ofNat n))
    (hc : c.toNat < 128) :
    holds c := by
  have hChar := h c.toNat hc
  rwa [Char.ofNat_toNat] at hChar

/- The ranges of the characters that end words. -/
def endRanges : Array (Nat × Nat) :=
  #[(9, 13), (32, 47), (58, 64), (91, 96), (123, 126), (133, 133),
    (160, 160), (5760, 5760), (8192, 8202), (8232, 8233),
    (8239, 8239), (8287, 8287), (12288, 12288)]

theorem endsWord_eq_inRanges (c : Char) :
    endsWord c = inRanges endRanges c.toNat := by
  by_cases hc : c.toNat < 128
  · exact forall_ascii
      (fun c => endsWord c = inRanges endRanges c.toNat)
      (by decide +kernel) hc
  · have hMark : isAsciiPunctuation c = false := by
      rw [isAsciiPunctuation, decide_eq_false (by omega : ¬ c.toNat ≤ 126)]
      simp
    rw [endsWord, hMark, Bool.false_or, Bool.eq_iff_iff]
    simp [isBlank, inRanges, endRanges]
    omega

theorem endsWord_ofNat
    {n : Nat}
    (h : inRanges endRanges n = false) :
    endsWord (Char.ofNat n) = false := by
  by_cases hn : n.isValidChar
  · have hChar : Char.ofNat n = Char.ofNatAux n hn := dif_pos hn
    rw [hChar, endsWord_eq_inRanges]
    exact h
  · have hChar : Char.ofNat n = Char.ofNat 0 := dif_neg hn
    rw [hChar]
    rfl

/- Whether some tables never change a character to a mark. -/
structure YieldNoMarks
    (shifts : Array Shift)
    (expansions : Array (Nat × List Nat)) : Prop where
  shifts : ∀ s ∈ shifts.toList, ∀ range ∈ endRanges.toList,
    s.last + s.offset < range.1 ∨ range.2 < s.first + s.offset
  expansions : ∀ row ∈ expansions.toList, ∀ n ∈ row.2,
    inRanges endRanges n = false

theorem yieldNoMarks_upper :
    YieldNoMarks upperShifts upperExpansions :=
  ⟨by decide +kernel, by decide +kernel⟩

theorem yieldNoMarks_lower :
    YieldNoMarks lowerShifts lowerExpansions :=
  ⟨by decide +kernel, by decide +kernel⟩

theorem YieldNoMarks.inRanges_of_applies
    {shifts : Array Shift}
    {expansions : Array (Nat × List Nat)}
    (h : YieldNoMarks shifts expansions)
    {s : Shift}
    (hs : s ∈ shifts)
    {n : Nat}
    (hn : s.applies n = true) :
    inRanges endRanges (n + s.offset).toNat = false := by
  rw [inRanges, Array.any_eq_false']
  rintro ⟨low, high⟩ hRange
  have hAvoids := h.shifts s hs.val _ hRange.val
  have hPositive : ∀ range ∈ endRanges.toList, 0 < range.1 := by decide
  have hLow := hPositive _ hRange.val
  simp only [Shift.applies, Bool.and_eq_true, decide_eq_true_eq] at hn
  simp only [Bool.and_eq_true, decide_eq_true_eq]
  omega

/- The tables change letters to letters. -/
theorem YieldNoMarks.endsWord_of_mem
    {shifts : Array Shift}
    {expansions : Array (Nat × List Nat)}
    (h : YieldNoMarks shifts expansions)
    (hc : endsWord c = false)
    (hd : d ∈ changeByTables shifts expansions c) :
    endsWord d = false := by
  rw [changeByTables] at hd
  cases hRow : expansions.find? (fun row => row.1 == c.toNat) with
  | some row =>
      simp only [hRow] at hd
      rcases List.mem_map.mp hd with ⟨n, hn, rfl⟩
      have hMem := Array.mem_of_find?_eq_some hRow
      exact endsWord_ofNat (h.expansions row hMem.val n hn)
  | none =>
      cases hShift : shifts.find? (fun s => s.applies c.toNat) with
      | some s =>
          simp only [hRow, hShift, List.mem_singleton] at hd
          rw [hd]
          have hApplies : s.applies c.toNat = true := by
            simpa using Array.find?_some hShift
          exact endsWord_ofNat (h.inRanges_of_applies
            (Array.mem_of_find?_eq_some hShift) hApplies)
      | none =>
          simp only [hRow, hShift, List.mem_singleton] at hd
          rwa [hd]

/- What a character becomes that does or does not start a word. -/
def letterForm (fresh : Bool) (c : Char) : List Char :=
  if fresh then upperChar c else lowerChar c

theorem letterForm_of_ascii
    (fresh : Bool)
    (hc : c.toNat < 128) :
    letterForm fresh c = [if fresh then c.toUpper else c.toLower] := by
  cases fresh with
  | true => exact if_pos hc
  | false => exact if_pos hc

/- Neither form of a character within a word ends one. -/
theorem endsWord_of_mem_letterForm
    (fresh : Bool)
    (hc : endsWord c = false)
    (hd : d ∈ letterForm fresh c) :
    endsWord d = false := by
  by_cases hAscii : c.toNat < 128
  · rw [letterForm_of_ascii fresh hAscii, List.mem_singleton] at hd
    rw [hd, ← hc]
    exact forall_ascii
      (fun c => endsWord (if fresh then c.toUpper else c.toLower) =
        endsWord c)
      (by cases fresh <;> decide +kernel) hAscii
  · cases fresh with
    | true =>
        rw [letterForm, if_pos rfl, upperChar, if_neg hAscii] at hd
        exact yieldNoMarks_upper.endsWord_of_mem hc hd
    | false =>
        rw [letterForm, if_neg (by decide), lowerChar, if_neg hAscii]
          at hd
        exact yieldNoMarks_lower.endsWord_of_mem hc hd

end Marks

------------------------------------------------------------
-- Title Case
------------------------------------------------------------

section Title

variable {fresh : Bool} {c : Char} {rest text : List Char}
variable {first second : List Char}

theorem titleFrom_cons_of_mark (h : endsWord c = true) :
    titleFrom fresh (c :: rest) = c :: titleFrom true rest :=
  if_pos h

theorem titleFrom_cons_of_letter (h : endsWord c = false) :
    titleFrom fresh (c :: rest) =
      letterForm fresh c ++ titleFrom false rest := by
  rw [titleFrom, if_neg (by exact Bool.eq_false_iff.mp h), letterForm]
  cases fresh <;> rfl

/- The marks of a text stay where they are. -/
theorem filter_titleFrom
    (fresh : Bool)
    (text : List Char) :
    (titleFrom fresh text).filter endsWord = text.filter endsWord := by
  induction text generalizing fresh with
  | nil => rfl
  | cons c rest ih =>
      cases hc : endsWord c with
      | true =>
          rw [titleFrom_cons_of_mark hc, List.filter_cons_of_pos hc,
            List.filter_cons_of_pos hc, ih]
      | false =>
          have hNone : (letterForm fresh c).filter endsWord = [] :=
            List.filter_eq_nil_iff.mpr fun d hd => by
              rw [endsWord_of_mem_letterForm fresh hc hd]
              decide
          rw [titleFrom_cons_of_letter hc, List.filter_append, hNone,
            List.nil_append, ih,
            List.filter_cons_of_neg (Bool.eq_false_iff.mp hc)]

/-
  Every word of a text is capitalized, but for the rest of a word
  that has started before the text.
-/
theorem splitOnP_titleFrom
    (fresh : Bool)
    {word : List Char}
    {others : List (List Char)}
    (h : text.splitOnP endsWord = word :: others) :
    (titleFrom fresh text).splitOnP endsWord =
      (if fresh then capitalized word else word.flatMap lowerChar) ::
        others.map capitalized := by
  induction text generalizing fresh word others with
  | nil =>
      obtain ⟨rfl, rfl⟩ := List.cons.inj h
      cases fresh <;> rfl
  | cons c rest ih =>
      rw [List.splitOnP_cons_eq_if_modifyHead] at h
      obtain ⟨part, parts, hRest⟩ := List.exists_cons_of_ne_nil
        (List.splitOnP_ne_nil endsWord rest)
      cases hc : endsWord c with
      | true =>
          -- The part before a mark is empty, and the next one is fresh.
          rw [if_pos hc, hRest] at h
          obtain ⟨rfl, rfl⟩ := List.cons.inj h
          rw [titleFrom_cons_of_mark hc,
            List.splitOnP_cons_eq_if_modifyHead, if_pos hc, ih true hRest]
          cases fresh <;> rfl
      | false =>
          rw [if_neg (Bool.eq_false_iff.mp hc), hRest] at h
          obtain ⟨rfl, rfl⟩ := List.cons.inj h
          rw [titleFrom_cons_of_letter hc,
            splitOnP_append_of_forall
              (fun _ => endsWord_of_mem_letterForm fresh hc)
              (ih false hRest)]
          cases fresh <;> rfl

/- In title case, all words of a text are capitalized. -/
theorem splitOnP_title (text : List Char) :
    (title text).splitOnP endsWord =
      (text.splitOnP endsWord).map capitalized := by
  cases hText : text.splitOnP endsWord with
  | nil => exact absurd hText (List.splitOnP_ne_nil _ _)
  | cons word others => exact splitOnP_titleFrom true hText

/-
  Two texts are the same in title case exactly if they have the
  same marks and words.
-/
theorem title_eq_iff :
    title first = title second ↔ SameWords first second := by
  constructor
  · intro h
    refine ⟨?_, ?_⟩
    · rw [← filter_titleFrom true first, ← filter_titleFrom true second]
      exact congrArg _ h
    · rw [← splitOnP_title, ← splitOnP_title, h]
  · intro h
    refine eq_of_splitOnP_eq (p := endsWord) ?_ ?_
    · rw [title, title, filter_titleFrom, filter_titleFrom, h.marks]
    · rw [splitOnP_title, splitOnP_title, h.words]

/- Letter case makes no difference, but marks do. -/
example :
    SameWords "max-sIZE".toList "Max-Size".toList ∧
      ¬ SameWords "max-size".toList "max_size".toList := by
  decide +kernel

end Title

------------------------------------------------------------
-- ASCII Texts
------------------------------------------------------------

section Ascii

variable {c : Char} {text first second : List Char}

/- A form of an ASCII character is the character in some case, ... -/
theorem map_toLower_letterForm
    (fresh : Bool)
    (hc : c.toNat < 128) :
    (letterForm fresh c).map Char.toLower = [c.toLower] := by
  rw [letterForm_of_ascii fresh hc, List.map_singleton]
  exact forall_ascii
    (fun c => [(if fresh then c.toUpper else c.toLower).toLower] =
      [c.toLower])
    (by cases fresh <;> decide +kernel) hc

/- ... and does not depend on its case. -/
theorem letterForm_toLower
    (fresh : Bool)
    (hc : c.toNat < 128) :
    letterForm fresh c.toLower = letterForm fresh c :=
  forall_ascii
    (fun c => letterForm fresh c.toLower = letterForm fresh c)
    (by cases fresh <;> decide +kernel) hc

theorem endsWord_toLower (hc : c.toNat < 128) :
    endsWord c.toLower = endsWord c :=
  forall_ascii (fun c => endsWord c.toLower = endsWord c)
    (by decide +kernel) hc

theorem toLower_of_endsWord
    (h : endsWord c = true)
    (hc : c.toNat < 128) :
    c.toLower = c :=
  forall_ascii (fun c => endsWord c = true → c.toLower = c)
    (by decide +kernel) hc h

/- Title case changes nothing but the case of letters, ... -/
theorem map_toLower_titleFrom
    (fresh : Bool)
    (hText : ∀ c ∈ text, c.toNat < 128) :
    (titleFrom fresh text).map Char.toLower = text.map Char.toLower := by
  induction text generalizing fresh with
  | nil => rfl
  | cons c rest ih =>
      rcases List.forall_mem_cons.mp hText with ⟨hFirst, hRest⟩
      cases hc : endsWord c with
      | true =>
          rw [titleFrom_cons_of_mark hc, List.map_cons, List.map_cons,
            ih true hRest]
      | false =>
          rw [titleFrom_cons_of_letter hc, List.map_append,
            map_toLower_letterForm fresh hFirst, ih false hRest]
          rfl

/- ... which does not matter to it. -/
theorem titleFrom_map_toLower
    (fresh : Bool)
    (hText : ∀ c ∈ text, c.toNat < 128) :
    titleFrom fresh (text.map Char.toLower) = titleFrom fresh text := by
  induction text generalizing fresh with
  | nil => rfl
  | cons c rest ih =>
      rcases List.forall_mem_cons.mp hText with ⟨hFirst, hRest⟩
      have hMark := endsWord_toLower hFirst
      rw [List.map_cons]
      cases hc : endsWord c with
      | true =>
          rw [titleFrom_cons_of_mark (hMark.trans hc),
            titleFrom_cons_of_mark hc, ih true hRest,
            toLower_of_endsWord hc hFirst]
      | false =>
          rw [titleFrom_cons_of_letter (hMark.trans hc),
            titleFrom_cons_of_letter hc, ih false hRest,
            letterForm_toLower fresh hFirst]

/-
  Two ASCII texts are the same in title case exactly if they
  differ in nothing but the case of letters.
-/
theorem title_eq_iff_of_ascii
    (hFirst : ∀ c ∈ first, c.toNat < 128)
    (hSecond : ∀ c ∈ second, c.toNat < 128) :
    title first = title second ↔
      first.map Char.toLower = second.map Char.toLower := by
  constructor
  · intro h
    rw [← map_toLower_titleFrom true hFirst,
      ← map_toLower_titleFrom true hSecond]
    exact congrArg _ h
  · intro h
    rw [title, title, ← titleFrom_map_toLower true hFirst, h,
      titleFrom_map_toLower true hSecond]

end Ascii

end Bindery.Text

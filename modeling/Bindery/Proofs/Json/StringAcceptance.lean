import Bindery.Proofs.Json.Acceptance

/-
  This file says that strings are read as the grammar has them.

  Key definitions include:
    * `Hex`

  Key theorems include:
    * `accepts_readUnicode`
    * `accepts_readEscape`
    * `leaves_readStringFrom_iff`
    * `accepts_readString`
-/

namespace Bindery.Json

/- Four hexadecimal digits, which are four bytes. -/
def Hex : Spelling Nat := fun n s t => ∃ x₁ x₂ x₃ x₄,
  s = x₁ :: x₂ :: x₃ :: x₄ :: t ∧ hexFour x₁ x₂ x₃ x₄ = some n

theorem accepts_readHex : Accepts readHex Hex := by
  intro c n t
  unfold readHex
  split
  · rename_i hShort
    simp only [not_leaves_failHere, false_iff]
    rintro ⟨x₁, x₂, x₃, x₄, hRest, -⟩
    have h₁ := x₁.utf8Size_pos
    have h₂ := x₂.utf8Size_pos
    have h₃ := x₃.utf8Size_pos
    have h₄ := x₄.utf8Size_pos
    simp [hRest] at hShort
    omega
  · split
    · rename_i x₁ x₂ x₃ x₄ rest hRest
      have hHex : Hex n c.rest t ↔
          hexFour x₁ x₂ x₃ x₄ = some n ∧ rest = t := by
        simp only [Hex, hRest, List.cons.injEq]
        constructor
        · rintro ⟨_, _, _, _, ⟨rfl, rfl, rfl, rfl, rfl⟩, hFour⟩
          exact ⟨hFour, rfl⟩
        · rintro ⟨hFour, rfl⟩
          exact ⟨_, _, _, _, ⟨rfl, rfl, rfl, rfl, rfl⟩, hFour⟩
      rw [hHex]
      cases hFour : hexFour x₁ x₂ x₃ x₄ with
      | none => simp
      | some m => simp [hRest]
    · rename_i hNot
      simp only [not_leaves_failHere, false_iff]
      rintro ⟨x₁, x₂, x₃, x₄, hRest, -⟩
      exact hNot _ _ _ _ _ hRest

theorem accepts_readPairMark (mark : Char) :
    Accepts (readPairMark mark) fun _ s t => s = mark :: t := by
  intro c a t
  unfold readPairMark
  cases hRest : c.rest with
  | nil => simp
  | cons x rest =>
      by_cases hMark : x = mark
      · simp [hMark, hRest]
      · simp [hMark]

/- What the number of a hexadecimal escape calls for. -/
theorem escape_unicode_iff
    {y : Char}
    {s t : List Char} :
    Escape y ('u' :: s) t ↔ ∃ n u, Hex n s u ∧
      isTrailing n = false ∧
        (isLeading n = true ∧
            (∃ v, u = '\\' :: v ∧ ∃ w, v = 'u' :: w ∧
              ∃ m r, Hex m w r ∧ isTrailing m = true ∧
                Char.ofNat ((n - 0xD800) * 1024 + (m - 0xDC00)
                  + 0x10000) = y ∧ r = t) ∨
          isLeading n = false ∧ Char.ofNat n = y ∧ u = t) := by
  constructor
  · rintro (hMark | ⟨hFour, hLeading, hTrailing⟩ |
      ⟨hFour, hLeading, hOther, hTrailing⟩)
    · simp [escapeMarks] at hMark
    · exact ⟨_, _, ⟨_, _, _, _, rfl, hFour⟩, hTrailing,
        Or.inr ⟨hLeading, rfl, rfl⟩⟩
    · refine ⟨_, _, ⟨_, _, _, _, rfl, hFour⟩, ?_,
        Or.inl ⟨hLeading, _, rfl, _, rfl, _, _,
          ⟨_, _, _, _, rfl, hOther⟩, hTrailing, rfl, rfl⟩⟩
      -- no number is both a first and a second half
      simp only [isLeading, isTrailing, Bool.and_eq_true,
        Bool.and_eq_false_iff, decide_eq_true_eq,
        decide_eq_false_iff_not] at hLeading ⊢
      omega
  · rintro ⟨n, u, ⟨_, _, _, _, rfl, hFour⟩, hNotTrailing,
      ⟨hLeading, _, rfl, _, rfl, m, _, ⟨_, _, _, _, rfl, hOther⟩,
        hTrailing, rfl, rfl⟩ | ⟨hLeading, rfl, rfl⟩⟩
    · exact Escape.pair hFour hLeading hOther hTrailing
    · exact Escape.unit hFour hLeading hNotTrailing

theorem accepts_readUnicode :
    Accepts readUnicode fun y s t => Escape y ('u' :: s) t := by
  intro c y t
  show Leaves _ y t ↔ Escape y ('u' :: c.rest) t
  rw [escape_unicode_iff]
  refine leaves_bind_iff_of_accepts accepts_readHex fun n c _ => ?_
  cases hTrailing : isTrailing n with
  | true => simp [hTrailing]
  | false =>
      cases hLeading : isLeading n with
      | false => simp [hTrailing, hLeading]
      | true =>
          simp only [hTrailing, hLeading, Bool.false_eq_true, if_false,
            if_true, true_and, Bool.true_eq_false, false_and, or_false]
          refine leaves_bind_iff_of_skips
            (accepts_readPairMark '\\') fun c _ => ?_
          refine leaves_bind_iff_of_skips
            (accepts_readPairMark 'u') fun c _ => ?_
          refine leaves_bind_iff_of_accepts accepts_readHex fun m c _ => ?_
          cases isTrailing m with
          | true => simp
          | false => simp

/- An escape is a mark, or the number of a character. -/
theorem escape_cons_iff
    {x y : Char}
    {s t : List Char} :
    Escape y (x :: s) t ↔
      (x, y) ∈ escapeMarks ∧ s = t ∨ x = 'u' ∧ Escape y ('u' :: s) t := by
  constructor
  · rintro (hMark | ⟨hFour, hLeading, hTrailing⟩ |
      ⟨hFour, hLeading, hOther, hTrailing⟩)
    · exact Or.inl ⟨hMark, rfl⟩
    · exact Or.inr ⟨rfl, Escape.unit hFour hLeading hTrailing⟩
    · exact Or.inr ⟨rfl, Escape.pair hFour hLeading hOther hTrailing⟩
  · rintro (⟨hMark, rfl⟩ | ⟨rfl, h⟩)
    · exact Escape.mark hMark
    · exact h

theorem accepts_readEscape : Accepts readEscape Escape := by
  intro c y t
  unfold readEscape
  cases hRest : c.rest with
  | nil =>
      simp only [not_leaves_failHere, false_iff]
      rintro ⟨⟩
  | cons x rest =>
      rw [escape_cons_iff]
      by_cases hUnicode : x = 'u'
      · subst hUnicode
        have hNext := accepts_readUnicode c.next y t
        simp only [Cursor.rest_next, hRest, List.tail_cons] at hNext
        simp [escapeMarks, hNext]
      · simp only [hUnicode, false_and, or_false, if_false, escapeMarks,
          Bool.or_eq_true, decide_eq_true_eq, or_assoc]
        split_ifs with hSelf hB hF hN hR hT
        · rcases hSelf with rfl | rfl | rfl
          · simp [hRest, eq_comm]
          · simp [hRest, eq_comm]
          · simp [hRest, eq_comm]
        · simp [hB, hRest, eq_comm]
        · simp [hF, hRest, eq_comm]
        · simp [hN, hRest, eq_comm]
        · simp [hR, hRest, eq_comm]
        · simp [hT, hRest, eq_comm]
        · simp only [not_or] at hSelf
          simp [hSelf, hB, hF, hN, hR, hT]

/- An escape is not empty. -/
theorem Escape.length_lt
    {y : Char}
    {s t : List Char}
    (h : Escape y s t) :
    t.length < s.length := by
  cases h with
  | mark => simp
  | unit => simp; omega
  | pair => simp; omega

@[simp] theorem not_quoted_nil {chars t : List Char} :
    ¬ Quoted chars [] t := by
  rintro ⟨⟩

@[simp] theorem quoted_quote_iff {chars s t : List Char} :
    Quoted chars ('"' :: s) t ↔ chars = [] ∧ s = t := by
  constructor
  · intro h
    cases h with
    | close => exact ⟨rfl, rfl⟩
    | plain hQuote => exact absurd rfl hQuote
  · rintro ⟨rfl, rfl⟩
    exact Quoted.close

@[simp] theorem quoted_backslash_iff {chars s t : List Char} :
    Quoted chars ('\\' :: s) t ↔ ∃ y u, Escape y s u ∧
      ∃ rest, Quoted rest u t ∧ chars = y :: rest := by
  constructor
  · intro h
    cases h with
    | plain _ hBackslash => exact absurd rfl hBackslash
    | escape hEscape hRest => exact ⟨_, _, hEscape, _, hRest, rfl⟩
  · rintro ⟨y, u, hEscape, rest, hRest, rfl⟩
    exact Quoted.escape hEscape hRest

theorem quoted_plain_iff
    {x : Char}
    {chars s t : List Char}
    (hQuote : x ≠ '"')
    (hBackslash : x ≠ '\\') :
    Quoted chars (x :: s) t ↔
      32 ≤ x.toNat ∧ ∃ rest, Quoted rest s t ∧ chars = x :: rest := by
  constructor
  · intro h
    cases h with
    | close => exact absurd rfl hQuote
    | plain _ _ hGraphic hRest => exact ⟨hGraphic, _, hRest, rfl⟩
    | escape => exact absurd rfl hBackslash
  · rintro ⟨hGraphic, rest, hRest, rfl⟩
    exact Quoted.plain hQuote hBackslash hGraphic hRest

theorem Quoted.length_lt
    {chars s t : List Char}
    (h : Quoted chars s t) :
    t.length < s.length := by
  induction h with
  | close => simp
  | plain _ _ _ _ ih => exact Nat.lt_succ_of_lt ih
  | escape hEscape _ ih =>
      exact Nat.lt_succ_of_lt (ih.trans hEscape.length_lt)

section Strings

variable {fuel : Nat} {before : List Char} {c : Cursor} {s : List Char}

theorem readStringFrom_quote (hRest : c.rest = '"' :: s) :
    readStringFrom (fuel + 1) before c =
      .ok (String.ofList before.reverse, c.next) := by
  simp [readStringFrom, hRest]

theorem readStringFrom_backslash (hRest : c.rest = '\\' :: s) :
    readStringFrom (fuel + 1) before c =
      readEscape c.next >>= fun next =>
        readStringFrom fuel (next.1 :: before) next.2 := by
  simp only [readStringFrom, hRest]
  cases readEscape c.next with
  | error e => rfl
  | ok next => rfl

theorem readStringFrom_plain
    {x : Char}
    (hRest : c.rest = x :: s)
    (hQuote : x ≠ '"')
    (hBackslash : x ≠ '\\') :
    readStringFrom (fuel + 1) before c =
      if x.toNat < 32 then c.failAhead .controlCharacter
      else readStringFrom fuel (x :: before) c.next := by
  simp [readStringFrom, hRest, hQuote, hBackslash]

/-
  What is left of a string, after some characters of it, is read
  to its end.
-/
theorem leaves_readStringFrom_iff
    {text : String}
    {t : List Char}
    (hFuel : c.rest.length < fuel) :
    Leaves (readStringFrom fuel before c) text t ↔
      ∃ chars, Quoted chars c.rest t ∧
        String.ofList (before.reverse ++ chars) = text := by
  induction fuel generalizing before c with
  | zero => exact absurd hFuel (Nat.not_lt_zero _)
  | succ fuel ih =>
      cases hRest : c.rest with
      | nil => simp [readStringFrom, hRest]
      | cons x rest =>
          have hTail : c.next.rest = rest := by simp [hRest]
          have hLess : rest.length < fuel := by
            rw [hRest] at hFuel
            exact Nat.lt_of_succ_lt_succ hFuel
          by_cases hQuote : x = '"'
          · subst hQuote
            simp [readStringFrom_quote hRest, hRest, and_comm]
          · by_cases hBackslash : x = '\\'
            · subst hBackslash
              rw [readStringFrom_backslash hRest,
                leaves_bind_iff_of_accepts accepts_readEscape
                  (p := fun y u => ∃ chars, Quoted chars u t ∧
                    String.ofList ((y :: before).reverse ++ chars)
                      = text)
                  fun y c' hEscape => ih (hEscape.length_lt.trans
                    (by rwa [hTail]))]
              simp only [List.reverse_cons, List.append_assoc,
                List.singleton_append]
              rw [hTail]
              constructor
              · rintro ⟨y, u, hEscape, chars, hChars, hText⟩
                exact ⟨y :: chars, Quoted.escape hEscape hChars, hText⟩
              · rintro ⟨chars, hChars, hText⟩
                rcases quoted_backslash_iff.mp hChars with
                  ⟨y, u, hEscape, rest, hRest, rfl⟩
                exact ⟨y, u, hEscape, rest, hRest, hText⟩
            · rw [readStringFrom_plain hRest hQuote hBackslash]
              by_cases hControl : x.toNat < 32
              · simp [hControl, quoted_plain_iff hQuote hBackslash,
                  Nat.not_le.mpr hControl]
              · simp only [hControl, if_false,
                  quoted_plain_iff hQuote hBackslash]
                rw [ih (by rwa [hTail])]
                simp [hRest, Nat.not_lt.mp hControl]

/- A string is read as it is spelled. -/
theorem accepts_readString :
    Accepts readString fun text s t =>
      ∃ chars, Quoted chars s t ∧ String.ofList chars = text := by
  intro c text t
  exact leaves_readStringFrom_iff (Nat.lt_succ_self _)

end Strings

end Bindery.Json

import Bindery.Json.Reader
import Bindery.Proofs.Json.NumberAcceptance
import Bindery.Proofs.Json.Place

/-
  This file says that the readers of documents stay in the text
  that they start in, whatever they read: every failure is at a
  place of the text.

  Key theorems include:
    * `stays_readString`
    * `stays_readNumber`
    * `stays_readSequence`
    * `stays_foldMembers`
    * `stays_readValue`
    * `stays_failUnexpected`
-/

namespace Bindery.Json

variable {α : Type}

------------------------------------------------------------
-- Strings
------------------------------------------------------------

theorem stays_readHex : Stays readHex := by
  intro text c h
  unfold readHex
  split
  · exact staysIn_failHere (h.advance _)
  · split
    · split
      · exact h.advance 4
      · exact h.isPlace_advanceBytes 4
    · exact h.isPlace_advanceBytes 4

theorem stays_readPairMark (mark : Char) : Stays (readPairMark mark) := by
  intro text c h
  unfold readPairMark
  split
  · exact staysIn_failHere h
  · split
    · exact h.next
    · exact staysIn_failAhead h

theorem stays_readUnicode : Stays readUnicode := by
  intro text c h
  refine (stays_readHex text c h).bind fun n c hHex => ?_
  dsimp only
  split_ifs
  · exact staysIn_failHere hHex
  · refine (stays_readPairMark '\\' text c hHex).bind fun _ c hMark => ?_
    refine (stays_readPairMark 'u' text c hMark).bind fun _ c hMark => ?_
    refine (stays_readHex text c hMark).bind fun m c hOther => ?_
    dsimp only
    split_ifs
    · exact hOther
    · exact staysIn_failHere hOther
  · exact hHex

theorem stays_readEscape : Stays readEscape := by
  intro text c h
  unfold readEscape
  split
  · exact staysIn_failHere h
  · split_ifs
    · exact h.next
    · exact h.next
    · exact h.next
    · exact h.next
    · exact h.next
    · exact h.next
    · exact stays_readUnicode text c.next h.next
    · exact staysIn_failAhead h

theorem stays_readStringFrom (fuel : Nat) (before : List Char) :
    Stays (readStringFrom fuel before) := by
  induction fuel generalizing before with
  | zero => exact fun _ _ h => staysIn_failHere h
  | succ fuel ih =>
      intro text c h
      unfold readStringFrom
      split
      · exact staysIn_failHere h
      · split_ifs
        · exact h.next
        · have hEscape := stays_readEscape text c.next h.next
          split
          · rename_i y c hRead
            rw [hRead] at hEscape
            exact ih _ text c hEscape
          · rename_i e hRead
            rwa [hRead] at hEscape
        · exact staysIn_failAhead h
        · exact ih _ text c.next h.next

theorem stays_readString : Stays readString :=
  fun text c h => stays_readStringFrom _ _ text c h

------------------------------------------------------------
-- Numbers
------------------------------------------------------------

theorem stays_scaledNumber
    (positive : Bool)
    (significand : Nat)
    (exponent : Int) :
    Stays (scaledNumber positive significand exponent) := by
  intro text c h
  unfold scaledNumber
  split
  · exact h
  · exact staysIn_failHere h

theorem stays_readUnsignedExponent
    (positive : Bool)
    (significand : Nat)
    (start : Int)
    (up : Bool) :
    Stays (readUnsignedExponent positive significand start up) := by
  intro text c h
  unfold readUnsignedExponent
  dsimp only
  split
  · exact staysIn_failHere h
  · split
    · split
      · split
        · exact staysIn_failHere (h.advance _)
        · exact h.advance _
      · exact stays_scaledNumber _ _ _ text _ (h.advance _)
    · exact staysIn_failAhead h

theorem stays_readExponent
    (positive : Bool)
    (significand : Nat)
    (start : Int) :
    Stays (readExponent positive significand start) := by
  intro text c h
  rw [readExponent_eq]
  refine stays_readUnsignedExponent _ _ _ _ text _ ?_
  unfold passSign
  split
  · exact h.next
  · exact h.next
  · exact h

theorem stays_readFraction
    (positive : Bool)
    (significand : Nat)
    (start : Int) :
    Stays (readFraction positive significand start) := by
  intro text c h
  have hDigits := h.advance (digitsAt c).length
  unfold readFraction
  dsimp only
  split_ifs
  · split
    · exact staysIn_failHere h
    · exact staysIn_failAhead h
  · split
    · exact stays_readExponent _ _ _ text _ hDigits.next
    · exact stays_readExponent _ _ _ text _ hDigits.next
    · exact stays_scaledNumber _ _ _ text _ hDigits

theorem stays_readAfterDigits
    (positive : Bool)
    (significand dropped : Nat) :
    Stays (readAfterDigits positive significand dropped) := by
  intro text c h
  unfold readAfterDigits
  split
  · exact stays_readFraction _ _ _ text _ h.next
  · exact stays_readExponent _ _ _ text _ h.next
  · exact stays_readExponent _ _ _ text _ h.next
  · split_ifs
    · exact h
    · exact stays_scaledNumber _ _ _ text _ h

theorem stays_readNumber (positive : Bool) :
    Stays (readNumber positive) := by
  intro text c h
  unfold readNumber
  split
  · exact staysIn_failHere h
  · split_ifs
    · split
      · split_ifs
        · exact staysIn_failAhead h.next
        · exact stays_readAfterDigits _ _ _ text _ h.next
      · exact stays_readAfterDigits _ _ _ text _ h.next
    · exact stays_readAfterDigits _ _ _ text _ (h.advance _)
    · exact staysIn_failAhead h

------------------------------------------------------------
-- Lists and Objects
------------------------------------------------------------

theorem stays_nextElement (first : Bool) : Stays (nextElement first) := by
  intro text c h
  have hBlanks := h.skipBlanks
  have hComma := hBlanks.next.skipBlanks
  unfold nextElement
  dsimp only
  split
  · exact staysIn_failAhead hBlanks
  · split_ifs
    · exact hBlanks
    · exact hBlanks
    · split
      · exact staysIn_failAhead hComma
      · split_ifs
        · exact staysIn_failAhead hComma
        · exact hComma
    · exact staysIn_failAhead hBlanks

theorem stays_readElements
    {element : Reader α}
    (hElement : Stays element)
    (fuel : Nat)
    (first : Bool) :
    Stays (readElements element fuel first) := by
  induction fuel generalizing first with
  | zero => exact fun _ _ h => staysIn_failHere h
  | succ fuel ih =>
      intro text c h
      refine (stays_nextElement first text c h).bind fun more c hNext => ?_
      dsimp only
      split_ifs
      · refine (hElement text c hNext).bind fun value c hValue => ?_
        exact (ih false text c hValue).bind fun _ _ hRest => hRest
      · exact hNext.next

theorem stays_readSequence
    {element : Reader α}
    (hElement : Stays element) :
    Stays (readSequence element) :=
  fun text c h => stays_readElements hElement _ _ text c h

theorem stays_closeList : Stays closeList := by
  intro text c h
  have hBlanks := h.skipBlanks
  have hComma := hBlanks.next.skipBlanks
  unfold closeList
  dsimp only
  split
  · exact staysIn_failAhead hBlanks
  · split_ifs
    · exact hBlanks.next
    · split
      · exact staysIn_failAhead hComma
      · exact staysIn_failAhead hComma
    · exact staysIn_failAhead hBlanks

theorem stays_nextKey (first : Bool) : Stays (nextKey first) := by
  intro text c h
  have hBlanks := h.skipBlanks
  have hComma := hBlanks.next.skipBlanks
  unfold nextKey
  dsimp only
  split
  · exact staysIn_failAhead hBlanks
  · split_ifs
    · exact hBlanks
    · exact hBlanks
    · exact staysIn_failAhead hBlanks
    · split
      · exact staysIn_failAhead hComma
      · split_ifs
        · exact hComma
        · exact staysIn_failAhead hComma
        · exact staysIn_failAhead hComma
    · exact staysIn_failAhead hBlanks

theorem stays_readColon : Stays readColon := by
  intro text c h
  have hBlanks := h.skipBlanks
  unfold readColon
  dsimp only
  split
  · exact staysIn_failAhead hBlanks
  · split_ifs
    · exact hBlanks.next
    · exact staysIn_failAhead hBlanks

theorem stays_foldMembersFrom
    {σ : Type}
    {step : σ → String → Reader σ}
    (hStep : ∀ state key, Stays (step state key))
    (fuel : Nat)
    (first : Bool)
    (state : σ) :
    Stays (foldMembersFrom step fuel first state) := by
  induction fuel generalizing first state with
  | zero => exact fun _ _ h => staysIn_failHere h
  | succ fuel ih =>
      intro text c h
      refine (stays_nextKey first text c h).bind fun more c hNext => ?_
      dsimp only
      split_ifs
      · refine (stays_readString text c.next hNext.next).bind
          fun key c hKey => ?_
        refine (hStep state key text c hKey).bind fun state c hValue => ?_
        exact ih false state text c hValue
      · exact hNext

theorem stays_foldMembers
    {σ : Type}
    {step : σ → String → Reader σ}
    (hStep : ∀ state key, Stays (step state key))
    (state : σ) :
    Stays (foldMembers step state) :=
  fun text c h => stays_foldMembersFrom hStep _ _ _ text c h

------------------------------------------------------------
-- Values
------------------------------------------------------------

theorem stays_readWord (word : List Char) : Stays (readWord word) := by
  induction word with
  | nil => exact fun _ _ h => h
  | cons x word ih =>
      intro text c h
      unfold readWord
      split
      · exact staysIn_failHere h
      · split_ifs
        · exact ih text c.next h.next
        · exact staysIn_failAhead h

/- A value stays in a text if the values within it do. -/
theorem stays_readValue_of_inner
    {depth : Nat}
    (hInner : ∀ inner, depth = inner + 1 → Stays (readValue inner)) :
    Stays (readValue depth) := by
  intro text c h
  have hBlanks := h.skipBlanks
  have hWord (word : List Char) (j : Json) :
      StaysIn text (readWord word c.skipBlanks.next >>=
        fun pair => .ok (j, pair.2)) :=
    (stays_readWord word text _ hBlanks.next).bind fun _ _ hEnd => hEnd
  unfold readValue
  dsimp only
  split
  · exact staysIn_failAhead hBlanks
  · split_ifs
    · exact hWord _ _
    · exact hWord _ _
    · exact hWord _ _
    · exact stays_readNumber _ text _ hBlanks.next
    · exact stays_readNumber _ text _ hBlanks
    · exact (stays_readString text _ hBlanks.next).bind
        fun _ _ hEnd => hEnd
    · split
      · exact staysIn_failAhead hBlanks
      · rename_i inner
        have hItems := stays_readSequence (hInner inner rfl)
        exact (hItems text _ hBlanks.next).bind fun _ _ hEnd => hEnd
    · split
      · exact staysIn_failAhead hBlanks
      · rename_i inner
        refine (stays_foldMembers ?_ [] text _ hBlanks.next).bind
          fun _ _ hEnd => hEnd.next
        intro members key text c hKey
        refine (stays_readColon text c hKey).bind fun _ c hColon => ?_
        exact (hInner inner rfl text c hColon).bind fun _ _ hEnd => hEnd
    · exact staysIn_failAhead hBlanks

theorem stays_readValue (depth : Nat) : Stays (readValue depth) := by
  induction depth with
  | zero => exact stays_readValue_of_inner fun _ hDepth => by simp at hDepth
  | succ depth ih =>
      refine stays_readValue_of_inner fun inner hDepth => ?_
      obtain rfl := Nat.succ.inj hDepth
      exact ih

/- Whatever stands in the wrong place is in the text. -/
theorem stays_failUnexpected (expected : String) :
    Stays (failUnexpected expected : Reader α) := by
  intro text c h
  unfold failUnexpected
  split
  · exact staysIn_failHere h
  · exact staysIn_failHere h
  · have hValue := stays_readValue 0 text c h
    split
    · rename_i value c hRead
      rw [hRead] at hValue
      exact staysIn_failHere hValue
    · rename_i e hRead
      rwa [hRead] at hValue

end Bindery.Json

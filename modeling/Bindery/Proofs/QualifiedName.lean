import Bindery.Proofs.Text.Separated
import Bindery.QualifiedName

/-
  This file says when a qualified name is cut where its last
  segment begins: the last segment must neither hold the
  separator nor complete it with a colon at its start.

  Key definitions include:
    * `IsBare`
    * `EndsPlainly`

  Key theorems include:
    * `toList_qualifiedName_append`
    * `separator_infix_qualifiedName_iff`
    * `splitLast_separator_iff`
    * `cut_qualifiedName_iff`
    * `qualifiedName_splits_iff`
-/

namespace Bindery

open Text (splitLast occursIn)

------------------------------------------------------------
-- Cutting Texts
------------------------------------------------------------

section Cut

variable {before after : List Char}

/- A colon before a text may add a separator to it. -/
theorem occursIn_separator_cons :
    occursIn separator (':' :: after) = false ↔
      occursIn separator after = false ∧ after.head? ≠ some ':' := by
  cases after with
  | nil => decide
  | cons c rest =>
      have hPrefix : separator.isPrefixOf (':' :: c :: rest) =
          (c == ':') := by
        rw [Bool.beq_comm]
        simp [separator, List.isPrefixOf]
      rw [occursIn, hPrefix, Bool.or_eq_false_iff, and_comm]
      simp

/-
  A text is cut where the separator stands, or after that if
  the last colon of the separator begins another one.
-/
theorem splitLast_separator (before after : List Char) :
    splitLast separator (before ++ separator ++ after) =
      match splitLast separator (':' :: after) with
      | none => some (before, after)
      | some (first, second) =>
          some (before ++ ':' :: first, second) := by
  have hHere : splitLast separator (separator ++ after) =
      match splitLast separator (':' :: after) with
      | none => some ([], after)
      | some (first, second) => some (':' :: first, second) := by
    change splitLast separator (':' :: ':' :: after) = _
    rw [splitLast]
    cases splitLast separator (':' :: after) with
    | none => simp [separator, List.isPrefixOf]
    | some pair => rfl
  rw [List.append_assoc]
  cases hTail : splitLast separator (':' :: after) with
  | none =>
      rw [hTail] at hHere
      rw [Text.splitLast_append before hHere, List.append_nil]
  | some pair =>
      rw [hTail] at hHere
      exact Text.splitLast_append before hHere

/- A separator is the last one if what follows adds none. -/
theorem splitLast_separator_iff :
    splitLast separator (before ++ separator ++ after) =
        some (before, after) ↔
      occursIn separator after = false ∧ after.head? ≠ some ':' := by
  rw [← occursIn_separator_cons, ← Text.splitLast_eq_none_iff (by decide),
    splitLast_separator]
  cases splitLast separator (':' :: after) <;> simp

end Cut

------------------------------------------------------------
-- Cutting Qualified Names
------------------------------------------------------------

section Names

variable {segments init : List String} {last name : String}

theorem qualifiedName_nil : qualifiedName [] = "" := rfl

theorem qualifiedName_singleton (last : String) :
    qualifiedName [last] = last := by
  simp [qualifiedName]

/- The last segment comes after the others and a separator. -/
theorem toList_qualifiedName_append
    (hInit : init ≠ [])
    (last : String) :
    (qualifiedName (init ++ [last])).toList =
      (qualifiedName init).toList ++ separator ++ last.toList := by
  induction init with
  | nil => exact absurd rfl hInit
  | cons first rest ih =>
      cases rest with
      | nil => simp [qualifiedName]
      | cons second others =>
          have hRest := ih (by simp)
          simp only [qualifiedName, String.toList_ofList] at hRest ⊢
          simp_all

/- A name of at most one segment, without a separator. -/
def IsBare (segments : List String) : Prop :=
  segments.length ≤ 1 ∧ ∀ s ∈ segments, ¬ separator <:+: s.toList

instance (segments : List String) : Decidable (IsBare segments) :=
  inferInstanceAs (Decidable (_ ∧ _))

/- Only the qualified name of a bare name has no separator. -/
theorem separator_infix_qualifiedName_iff :
    separator <:+: (qualifiedName segments).toList ↔
      ¬ IsBare segments := by
  rcases List.eq_nil_or_concat segments with rfl | ⟨init, last, hSnoc⟩
  · decide
  rw [List.concat_eq_append] at hSnoc
  subst hSnoc
  by_cases hInit : init = []
  · subst hInit
    simp [IsBare, qualifiedName_singleton]
  · have hLength := List.length_pos_iff.mpr hInit
    refine iff_of_true ?_ fun hBare => ?_
    · rw [toList_qualifiedName_append hInit]
      exact List.infix_append _ _ _
    · have hOne := hBare.1
      rw [List.length_append, List.length_singleton] at hOne
      omega

theorem cut_of_splitLast
    {before after : List Char}
    (h : splitLast separator name.toList = some (before, after)) :
    namespaceOf name = String.ofList before ∧
      localName name = String.ofList after := by
  simp [namespaceOf, localName, h]

/- A name without a separator is not cut. -/
theorem cut_of_splitLast_eq_none
    (h : splitLast separator name.toList = none) :
    namespaceOf name = "" ∧ localName name = name := by
  simp [namespaceOf, localName, h]

/- A name on its own is cut nowhere exactly if it has no separator. -/
theorem cut_singleton_iff :
    (namespaceOf last = "" ∧ localName last = last) ↔
      occursIn separator last.toList = false := by
  rw [← Text.splitLast_eq_none_iff (by decide)]
  constructor
  · rintro ⟨-, hLocal⟩
    cases hSplit : splitLast separator last.toList with
    | none => rfl
    | some pair =>
        rcases pair with ⟨before, after⟩
        have hText := Text.eq_of_splitLast hSplit
        rw [(cut_of_splitLast hSplit).2] at hLocal
        have hLength := congrArg List.length hText
        rw [← hLocal] at hLength
        simp [separator] at hLength
        omega
  · exact cut_of_splitLast_eq_none

/- A name after others is cut off if no separator is added. -/
theorem cut_append_iff (hInit : init ≠ []) :
    (namespaceOf (qualifiedName (init ++ [last])) =
        qualifiedName init ∧
      localName (qualifiedName (init ++ [last])) = last) ↔
      occursIn separator last.toList = false ∧
        last.toList.head? ≠ some ':' := by
  rw [← @splitLast_separator_iff (qualifiedName init).toList,
    ← toList_qualifiedName_append hInit]
  constructor
  · rintro ⟨hNamespace, hLocal⟩
    cases hSplit : splitLast separator
        (qualifiedName (init ++ [last])).toList with
    | none =>
        rw [toList_qualifiedName_append hInit, splitLast_separator] at hSplit
        split at hSplit <;> simp at hSplit
    | some pair =>
        rcases cut_of_splitLast hSplit with ⟨hFirst, hSecond⟩
        rw [hFirst] at hNamespace
        rw [hSecond] at hLocal
        simp [← hNamespace, ← hLocal]
  · intro hSplit
    rcases cut_of_splitLast hSplit with ⟨hNamespace, hLocal⟩
    exact ⟨by simpa using hNamespace, by simpa using hLocal⟩

/-
  Whether the last of some segments can be told from the others
  once they are joined.
-/
structure EndsPlainly (segments : List String) : Prop where
  separator : ∀ last, segments.getLast? = some last →
    occursIn separator last.toList = false
  colon : 2 ≤ segments.length → ∀ last,
    segments.getLast? = some last → last.toList.head? ≠ some ':'

/-
  A qualified name is cut into the namespace around the last
  segment and that segment exactly if they can be told apart.
-/
theorem cut_qualifiedName_iff :
    (namespaceOf (qualifiedName segments) =
        enclosingNamespace segments ∧
      localName (qualifiedName segments) = segments.getLastD "") ↔
      EndsPlainly segments := by
  rcases List.eq_nil_or_concat segments with rfl | ⟨init, last, hSnoc⟩
  · exact iff_of_true (by decide) ⟨by simp, by simp⟩
  rw [List.concat_eq_append] at hSnoc
  subst hSnoc
  have hLength : 2 ≤ (init ++ [last]).length ↔ init ≠ [] := by
    cases init <;> simp
  have hPlainly : EndsPlainly (init ++ [last]) ↔
      occursIn separator last.toList = false ∧
        (init ≠ [] → last.toList.head? ≠ some ':') := by
    rw [← hLength]
    constructor
    · exact fun h => ⟨h.separator last List.getLast?_concat,
        fun hTwo => h.colon hTwo last List.getLast?_concat⟩
    · rintro ⟨hSeparator, hColon⟩
      constructor
      · rintro other hOther
        obtain rfl : last = other := by simpa using hOther
        exact hSeparator
      · rintro hTwo other hOther
        obtain rfl : last = other := by simpa using hOther
        exact hColon hTwo
  rw [hPlainly, enclosingNamespace, List.dropLast_concat]
  by_cases hInit : init = []
  · subst hInit
    simpa [qualifiedName_nil, qualifiedName_singleton] using
      cut_singleton_iff
  · simpa [hInit] using cut_append_iff hInit

/-
  A name is cut where its last segment begins, whatever the other
  segments are, exactly if that segment neither holds the
  separator nor, after others, starts with a colon.
-/
theorem qualifiedName_splits_iff (hNe : segments ≠ []) :
    (namespaceOf (qualifiedName segments) =
        enclosingNamespace segments ∧
      localName (qualifiedName segments) = segments.getLast hNe) ↔
      ¬ separator <:+: (segments.getLast hNe).toList ∧
        (2 ≤ segments.length →
          (segments.getLast hNe).toList.head? ≠ some ':') := by
  have hLast := List.getLast?_eq_some_getLast hNe
  have hDefault : segments.getLastD "" = segments.getLast hNe := by
    rw [List.getLastD_eq_getLast?, hLast, Option.getD_some]
  have hOccurs : occursIn separator (segments.getLast hNe).toList = false ↔
      ¬ separator <:+: (segments.getLast hNe).toList := by
    rw [← Text.occursIn_iff_isInfix, Bool.not_eq_true]
  rw [← hDefault, cut_qualifiedName_iff, hDefault, ← hOccurs]
  constructor
  · exact fun h => ⟨h.separator _ hLast, fun hTwo => h.colon hTwo _ hLast⟩
  · rintro ⟨hSeparator, hColon⟩
    constructor
    · intro other hOther
      obtain rfl := Option.some.inj (hLast.symm.trans hOther)
      exact hSeparator
    · intro hTwo other hOther
      obtain rfl := Option.some.inj (hLast.symm.trans hOther)
      exact hColon hTwo

/- Colons at the end of a segment do no harm, one at the start does. -/
theorem qualifiedName_splits_colons :
    (["a::b", ":", "c:"] ≠ [] ∧
      namespaceOf "a::b:::::c:" = "a::b:::" ∧
      localName "a::b:::::c:" = "c:") ∧
    (["a", ":b"] ≠ [] ∧
      ¬ (namespaceOf "a:::b" = "a" ∧ localName "a:::b" = ":b")) := by
  have hPlain := @qualifiedName_splits_iff ["a::b", ":", "c:"]
    (List.cons_ne_nil _ _)
  have hColon := @qualifiedName_splits_iff ["a", ":b"]
    (List.cons_ne_nil _ _)
  refine ⟨⟨List.cons_ne_nil _ _, ?_⟩, ⟨List.cons_ne_nil _ _, ?_⟩⟩
  · exact hPlain.mpr (by decide)
  · exact mt hColon.mp (by decide)

end Names

end Bindery

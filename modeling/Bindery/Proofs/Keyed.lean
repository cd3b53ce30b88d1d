import Bindery.Keyed
import Bindery.Proofs.Repetition

/-
  This file says which values are found under which keys, also
  after several have been put there, and that distinct keys in
  their order and what is found under them are all there is to a
  list of values under keys.

  Key definitions include:
    * `Keyed.putAll`

  Key theorems include:
    * `Keyed.get?_eq_none_iff`
    * `Keyed.get?_eq_some_iff`
    * `Keyed.get?_reverse_eq_some_iff`
    * `Keyed.eq_of_keys_of_get?`
    * `Keyed.keys_putAll`
    * `Keyed.get?_putAll`
    * `Keyed.putAll_of_nodup`
-/

namespace Bindery.Keyed

variable {α : Type} {key : String} {entries others : List (String × α)}

theorem get?_append
    (key : String)
    (entries others : List (String × α)) :
    get? key (entries ++ others) =
      (get? key entries).or (get? key others) := by
  induction entries with
  | nil => simp [get?]
  | cons entry rest ih =>
      rcases entry with ⟨k, v⟩
      by_cases hKey : k = key
      · simp [get?, hKey]
      · simp [get?, hKey, ih]

theorem get?_eq_none_iff :
    get? key entries = none ↔ key ∉ keys entries := by
  induction entries with
  | nil => simp [get?, keys]
  | cons entry rest ih =>
      rcases entry with ⟨k, v⟩
      by_cases hKey : k = key
      · simp [get?, keys, hKey]
      · simpa [get?, keys, hKey, Ne.symm hKey] using ih

/- Where the keys are distinct, a value is found under its key. -/
theorem get?_eq_some_iff
    {value : α}
    (h : (keys entries).Nodup) :
    get? key entries = some value ↔ (key, value) ∈ entries := by
  induction entries with
  | nil => simp [get?]
  | cons entry rest ih =>
      rcases entry with ⟨k, v⟩
      rcases List.nodup_cons.mp h with ⟨hNew, hRest⟩
      by_cases hKey : k = key
      · subst hKey
        have hApart : (k, value) ∉ rest := fun hMem =>
          hNew (List.mem_map.mpr ⟨(k, value), hMem, rfl⟩)
        simp [get?, hApart, eq_comm]
      · simp [get?, hKey, ih hRest, Ne.symm hKey]

theorem mem_of_get?
    {value : α}
    (h : get? key entries = some value) :
    (key, value) ∈ entries := by
  induction entries with
  | nil => simp [get?] at h
  | cons entry rest ih =>
      rcases entry with ⟨k, v⟩
      by_cases hKey : k = key
      · obtain rfl : v = value := by simpa [get?, hKey] using h
        simp [hKey]
      · exact List.mem_cons_of_mem _ (ih (by simpa [get?, hKey] using h))

/- Where the keys are distinct, the order does not matter. -/
theorem get?_perm
    {others : List (String × α)}
    (hPerm : others.Perm entries)
    (h : (keys entries).Nodup)
    (key : String) :
    get? key others = get? key entries := by
  have hOthers : (keys others).Nodup :=
    (hPerm.map Prod.fst).nodup_iff.mpr h
  apply Option.ext
  intro value
  rw [get?_eq_some_iff hOthers, get?_eq_some_iff h, hPerm.mem_iff]

theorem get?_reverse
    (h : (keys entries).Nodup) :
    get? key entries.reverse = get? key entries :=
  get?_perm (List.reverse_perm entries) h key

/- The last entry under a key is the first one from the end. -/
theorem get?_reverse_eq_some_iff {value : α} :
    get? key entries.reverse = some value ↔
      ∃ before after, entries = before ++ (key, value) :: after ∧
        key ∉ keys after := by
  induction entries with
  | nil => simp [get?]
  | cons entry rest ih =>
      rcases entry with ⟨k, v⟩
      rw [List.reverse_cons, get?_append, Option.or_eq_some_iff, ih,
        get?_eq_none_iff]
      constructor
      · rintro (⟨before, after, rfl, hAfter⟩ | ⟨hNone, hFirst⟩)
        · exact ⟨(k, v) :: before, after, rfl, hAfter⟩
        · have hEntry : (k, v) = (key, value) := by
            simpa [get?] using hFirst
          exact ⟨[], rest, by rw [hEntry]; rfl, by
            simpa [keys] using hNone⟩
      · rintro ⟨before, after, hSplit, hAfter⟩
        rcases List.cons_eq_append_iff.mp hSplit with
          ⟨rfl, hHead⟩ | ⟨front, rfl, rfl⟩
        · rcases List.cons.inj hHead with ⟨hEntry, rfl⟩
          rcases Prod.mk.inj hEntry with ⟨rfl, rfl⟩
          refine Or.inr ⟨?_, by simp [get?]⟩
          simpa [keys] using hAfter
        · exact Or.inl ⟨front, after, rfl, hAfter⟩

/- Distinct keys and their values determine the entries. -/
theorem eq_of_keys_of_get?
    (hNodup : (keys entries).Nodup)
    (hKeys : keys entries = keys others)
    (hValues : ∀ key, get? key entries = get? key others) :
    entries = others := by
  induction entries generalizing others with
  | nil =>
      have hNil : others.map Prod.fst = [] := hKeys.symm
      exact (List.map_eq_nil_iff.mp hNil).symm
  | cons entry rest ih =>
      rcases entry with ⟨k, v⟩
      rcases List.map_eq_cons_iff.mp hKeys.symm with
        ⟨⟨other, w⟩, tail, rfl, hOther, hTail⟩
      obtain rfl : other = k := hOther
      have hValue : v = w := by
        simpa [get?] using hValues other
      subst hValue
      rcases List.nodup_cons.mp hNodup with ⟨hNew, hRest⟩
      rw [ih hRest hTail.symm]
      intro key
      by_cases hKey : other = key
      · subst hKey
        have hNewTail : other ∉ keys tail := by
          rwa [show keys tail = keys rest from hTail]
        rw [get?_eq_none_iff.mpr hNew, get?_eq_none_iff.mpr hNewTail]
      · simpa [get?, hKey] using hValues key

/- Put several values one after the other. -/
def putAll
    (added entries : List (String × α)) : List (String × α) :=
  added.foldl (fun entries entry => put entry.1 entry.2 entries) entries

@[simp] theorem putAll_nil (entries : List (String × α)) :
    putAll [] entries = entries := rfl

@[simp] theorem putAll_cons
    (entry : String × α)
    (added entries : List (String × α)) :
    putAll (entry :: added) entries =
      putAll added (put entry.1 entry.2 entries) := rfl

theorem putAll_append
    (first second entries : List (String × α)) :
    putAll (first ++ second) entries =
      putAll second (putAll first entries) :=
  List.foldl_append

theorem mem_put
    {value : α}
    {entry : String × α}
    (h : entry ∈ put key value entries) :
    entry = (key, value) ∨ entry ∈ entries := by
  induction entries with
  | nil => exact Or.inl (List.mem_singleton.mp h)
  | cons first rest ih =>
      rcases first with ⟨k, v⟩
      by_cases hKey : k = key
      · rw [put, if_pos hKey, hKey] at h
        exact (List.mem_cons.mp h).imp_right (List.mem_cons_of_mem _)
      · rw [put, if_neg hKey] at h
        rcases List.mem_cons.mp h with rfl | hRest
        · exact Or.inr List.mem_cons_self
        · exact (ih hRest).imp_right (List.mem_cons_of_mem _)

/- Every entry has been put there or was there before. -/
theorem mem_putAll
    {added : List (String × α)}
    {entry : String × α}
    (h : entry ∈ putAll added entries) :
    entry ∈ added ∨ entry ∈ entries := by
  induction added generalizing entries with
  | nil => exact Or.inr h
  | cons first rest ih =>
      rcases ih h with hRest | hPut
      · exact Or.inl (List.mem_cons_of_mem _ hRest)
      · rcases mem_put hPut with rfl | hOld
        · exact Or.inl List.mem_cons_self
        · exact Or.inr hOld

/-
  Keys that were there come first, then new ones in the order in
  which they came first.
-/
theorem keys_putAll (added entries : List (String × α)) :
    keys (putAll added entries) =
      keys entries ++
        ((keys added).filter (· ∉ keys entries)).eraseDups := by
  induction added using List.reverseRecOn with
  | nil => simp [keys]
  | append_singleton added entry ih =>
      have hKeys : keys (added ++ [entry]) = keys added ++ [entry.1] := by
        simp [keys]
      rw [putAll_append, putAll_cons, putAll_nil, keys_put, ih, hKeys,
        List.filter_append]
      by_cases hOld : entry.1 ∈ keys entries
      · simp [hOld]
      · rw [List.filter_cons_of_pos (by simpa using hOld),
          List.filter_nil, eraseDups_concat]
        by_cases hAdded : entry.1 ∈ keys added
        · simp [hOld, hAdded]
        · simp [hOld, hAdded]

/- The value that was put last under a key counts. -/
theorem get?_putAll
    (key : String)
    (added entries : List (String × α)) :
    get? key (putAll added entries) =
      (get? key added.reverse).or (get? key entries) := by
  induction added using List.reverseRecOn with
  | nil => simp [get?]
  | append_singleton added entry ih =>
      rw [putAll_append, putAll_cons, putAll_nil, get?_put, ih,
        List.reverse_append, List.reverse_singleton,
        List.singleton_append]
      rcases entry with ⟨k, v⟩
      by_cases hKey : k = key
      · simp [get?, hKey]
      · simp [get?, hKey]

/- Entries with distinct keys are put as they are. -/
theorem putAll_of_nodup (h : (keys entries).Nodup) :
    putAll entries [] = entries := by
  have hKeys : keys (putAll entries []) = keys entries := by
    rw [keys_putAll]
    simpa [keys] using eraseDups_of_nodup h
  refine eq_of_keys_of_get? (hKeys ▸ h) hKeys fun key => ?_
  rw [get?_putAll, get?_reverse h]
  simp [get?]

/- A value that is there already is put without a change. -/
theorem put_of_get?
    {value : α}
    (h : get? key entries = some value) :
    put key value entries = entries := by
  induction entries with
  | nil => simp [get?] at h
  | cons entry rest ih =>
      rcases entry with ⟨k, v⟩
      by_cases hKey : k = key
      · obtain rfl : v = value := by simpa [get?, hKey] using h
        rw [put, if_pos hKey]
      · rw [put, if_neg hKey, ih (by simpa [get?, hKey] using h)]

/- Of two values under one key the second stays. -/
theorem put_put
    (key : String)
    (first second : α)
    (entries : List (String × α)) :
    put key second (put key first entries) =
      put key second entries := by
  induction entries with
  | nil => simp [put]
  | cons entry rest ih =>
      rcases entry with ⟨k, v⟩
      by_cases hKey : k = key
      · simp [put, hKey]
      · simp [put, hKey, ih]

/- A key that is removed may have any value. -/
theorem erase_put
    (key : String)
    (value : α)
    (entries : List (String × α)) :
    erase key (put key value entries) = erase key entries := by
  induction entries with
  | nil => simp [put, erase]
  | cons entry rest ih =>
      rcases entry with ⟨k, v⟩
      by_cases hKey : k = key
      · simp [put, erase, hKey]
      · simp [put, erase, hKey, ih]

theorem erase_erase
    (key : String)
    (entries : List (String × α)) :
    erase key (erase key entries) = erase key entries := by
  induction entries with
  | nil => rfl
  | cons entry rest ih =>
      rcases entry with ⟨k, v⟩
      by_cases hKey : k = key
      · simp [erase, hKey, ih]
      · simp [erase, hKey, ih]

/- A key that is missing is removed without a change. -/
theorem erase_of_get?_eq_none
    (h : get? key entries = none) :
    erase key entries = entries := by
  induction entries with
  | nil => rfl
  | cons entry rest ih =>
      rcases entry with ⟨k, v⟩
      by_cases hKey : k = key
      · simp [get?, hKey] at h
      · rw [erase, if_neg hKey, ih (by simpa [get?, hKey] using h)]

/- Removing a key takes entries away and keeps the order. -/
theorem erase_sublist
    (key : String)
    (entries : List (String × α)) :
    (erase key entries).Sublist entries := by
  induction entries with
  | nil => exact List.Sublist.refl _
  | cons entry rest ih =>
      rcases entry with ⟨k, v⟩
      by_cases hKey : k = key
      · rw [erase, if_pos hKey]
        exact ih.cons _
      · rw [erase, if_neg hKey]
        exact ih.cons_cons _

theorem keys_erase_sublist
    (key : String)
    (entries : List (String × α)) :
    (keys (erase key entries)).Sublist (keys entries) :=
  (erase_sublist key entries).map Prod.fst

end Bindery.Keyed

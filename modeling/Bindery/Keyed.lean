/-
  This file defines lists of values under keys, in which the
  order of the keys counts and the first entry of a key is the
  one that is found.

  Key definitions include:
    * `Keyed.keys`
    * `Keyed.get?`
    * `Keyed.put`
    * `Keyed.erase`

  Key theorems include:
    * `Keyed.keys_put`
    * `Keyed.nodup_keys_put`
    * `Keyed.get?_put`
    * `Keyed.get?_erase`
-/

namespace Bindery.Keyed

variable {α : Type}

/- The keys in order. -/
def keys (entries : List (String × α)) : List String :=
  entries.map Prod.fst

/- The value under a key. -/
def get?
    (key : String) : List (String × α) → Option α
| [] => none
| (k, v) :: rest =>
    if k = key then some v else get? key rest

/-
  Put a value under a key: a key that is there keeps its place
  and gets the new value, a new key comes last.
-/
def put
    (key : String)
    (value : α) : List (String × α) → List (String × α)
| [] => [(key, value)]
| (k, v) :: rest =>
    if k = key then (k, value) :: rest
    else (k, v) :: put key value rest

/- Remove a key. -/
def erase
    (key : String) : List (String × α) → List (String × α)
| [] => []
| (k, v) :: rest =>
    if k = key then erase key rest
    else (k, v) :: erase key rest

/- Putting a value keeps the keys and appends a new one. -/
theorem keys_put
    (key : String)
    (value : α)
    (entries : List (String × α)) :
    keys (put key value entries) =
      if key ∈ keys entries then keys entries
      else keys entries ++ [key] := by
  induction entries with
  | nil => simp [keys, put]
  | cons entry rest ih =>
      rcases entry with ⟨k, v⟩
      by_cases h : k = key
      · simp [keys, put, h]
      · have h' : ¬ key = k := fun e => h e.symm
        simp only [keys, put, h, if_false, List.map_cons,
          List.mem_cons, h', false_or] at ih ⊢
        rw [ih]
        split <;> simp_all

/- Putting a value keeps the keys distinct. -/
theorem nodup_keys_put
    (key : String)
    (value : α)
    (entries : List (String × α))
    (h : (keys entries).Nodup) :
    (keys (put key value entries)).Nodup := by
  rw [keys_put]
  split
  · exact h
  · rename_i hNew
    rw [List.nodup_append]
    refine ⟨h, by simp, ?_⟩
    intro a ha b hb
    have hb' : b = key := by simpa using hb
    subst hb'
    intro hab
    exact hNew (hab ▸ ha)

/- The value under a key after a value has been put. -/
theorem get?_put
    (key other : String)
    (value : α)
    (entries : List (String × α)) :
    get? other (put key value entries) =
      if key = other then some value else get? other entries := by
  induction entries with
  | nil => simp [put, get?]
  | cons entry rest ih =>
      rcases entry with ⟨k, v⟩
      by_cases hKey : k = key
      · subst hKey
        by_cases hOther : k = other
        · simp [put, get?, hOther]
        · simp [put, get?, hOther]
      · by_cases hOther : k = other
        · subst hOther
          simp [put, get?, hKey, Ne.symm hKey]
        · simp [put, get?, hKey, hOther, ih]

/- The value under a key after a key has been removed. -/
theorem get?_erase
    (key other : String)
    (entries : List (String × α)) :
    get? other (erase key entries) =
      if key = other then none else get? other entries := by
  induction entries with
  | nil => simp [erase, get?]
  | cons entry rest ih =>
      rcases entry with ⟨k, v⟩
      by_cases hKey : k = key
      · subst hKey
        by_cases hOther : k = other
        · subst hOther
          simpa [erase] using ih
        · simp [erase, get?, ih, hOther]
      · by_cases hOther : k = other
        · subst hOther
          simp [erase, get?, hKey, Ne.symm hKey]
        · simp [erase, get?, hKey, hOther, ih]

/- Only the keys that are there have a value. -/
theorem mem_keys_of_get?
    {key : String}
    {value : α}
    {entries : List (String × α)}
    (h : get? key entries = some value) :
    key ∈ keys entries := by
  induction entries with
  | nil => simp [get?] at h
  | cons entry rest ih =>
      rcases entry with ⟨k, v⟩
      by_cases hKey : k = key
      · simp [keys, hKey]
      · have hRest : get? key rest = some value := by
          simpa [get?, hKey] using h
        exact List.mem_cons_of_mem _ (ih hRest)

end Bindery.Keyed

import Bindery.Template.Execution

/-
  This file is about the values of documents and what templates
  read from them.

  Key definitions include:
    * `Value.part`

  Key theorems include:
    * `Value.attribute?_ofJson_object`
    * `Value.ofJson_ne_undefined`
    * `Value.ne_undefined_of_mem_elements`
    * `Value.slice_dropLast`
-/

namespace Bindery.Template.Value

------------------------------------------------------------
-- Documents
------------------------------------------------------------

section Documents

variable {word : String} {j : Json}

theorem ofItems_eq_map (items : List Json) :
    ofItems items = items.map ofJson := by
  induction items with
  | nil => rfl
  | cons item rest ih => rw [ofItems, ih, List.map_cons]

theorem ofItems_map_text (names : List String) :
    ofItems (names.map Json.text) = names.map plain := by
  rw [ofItems_eq_map, List.map_map]
  rfl

theorem ofMembers_eq_map (members : List (String × Json)) :
    ofMembers members =
      members.map (fun (key, j) => (.plain key, ofJson j)) := by
  induction members with
  | nil => rfl
  | cons member rest ih =>
      rcases member with ⟨key, j⟩
      rw [ofMembers, ih, List.map_cons]

@[simp] theorem same_plain (s t : String) :
    same (.plain s) (.plain t) = (s == t) := rfl

@[simp] theorem display_plain (s : String) :
    (plain s).display = s := rfl

@[simp] theorem isTrue_plain (s : String) :
    (plain s).isTrue = !s.isEmpty := rfl

/- What is under a name in an object. -/
theorem attribute?_ofJson_object
    (word : String)
    (members : List (String × Json)) :
    (ofJson (.object members)).attribute? word =
      (Keyed.get? word members).map ofJson := by
  rw [ofJson, attribute?]
  induction members with
  | nil => rfl
  | cons member rest ih =>
      rcases member with ⟨key, j⟩
      by_cases hKey : key = word
      · simp [ofMembers, valueUnder?, Keyed.get?, hKey]
      · simp [ofMembers, valueUnder?, Keyed.get?, hKey, ih]

/- The names and bodies that a template goes through. -/
theorem itemsOf_ofJson_object (members : List (String × Json)) :
    itemsOf (ofJson (.object members)) =
      .ok (.list (members.map
        (fun (key, j) => .list [.plain key, ofJson j]))) := by
  simp [ofJson, itemsOf, ofMembers_eq_map, Function.comp_def]

/- Nothing in a document is undefined, ... -/
theorem ofJson_ne_undefined (j : Json) : ofJson j ≠ .undefined := by
  cases j <;> simp [ofJson, plain]

/- ... nor is anything that a loop over a part of it goes through. -/
theorem ne_undefined_of_mem_elements
    {items : List Value}
    {item : Value}
    (hItems : (ofJson j).elements = .ok items)
    (hItem : item ∈ items) :
    item ≠ .undefined := by
  cases j with
  | text s =>
      obtain rfl : characters s = items := by
        simpa [ofJson, plain, elements] using hItems
      rcases List.mem_map.mp hItem with ⟨c, -, rfl⟩
      simp [plain]
  | array parts =>
      obtain rfl : ofItems parts = items := by
        simpa [ofJson, elements] using hItems
      rw [ofItems_eq_map] at hItem
      rcases List.mem_map.mp hItem with ⟨part, -, rfl⟩
      exact ofJson_ne_undefined part
  | object members =>
      obtain rfl : (ofMembers members).map Prod.fst = items := by
        simpa [ofJson, elements] using hItems
      rw [ofMembers_eq_map, List.map_map] at hItem
      rcases List.mem_map.mp hItem with ⟨member, -, rfl⟩
      simp [plain]
  | null =>
      obtain rfl : [] = items := by
        simpa [ofJson, elements] using hItems
      simp at hItem
  | bool b => simp [ofJson, elements] at hItems
  | int n => simp [ofJson, elements] at hItems
  | float x => simp [ofJson, elements] at hItems

end Documents

------------------------------------------------------------
-- Parts
------------------------------------------------------------

/- What is under a name in a value; undefined if nothing is. -/
def part (value : Value) (word : String) : Value :=
  (value.attribute? word).getD .undefined

/- Only an undefined value cannot be asked for a part. -/
theorem partOf_attribute?
    {value : Value}
    (h : value ≠ .undefined)
    (word : String) :
    partOf value (value.attribute? word) = .ok (value.part word) := by
  unfold part
  cases value.attribute? word with
  | some found => cases value <;> rfl
  | none => cases value <;> first | exact absurd rfl h | rfl

/- What is part of a document is a document unless it is undefined. -/
theorem part_ofJson (j : Json) (word : String) :
    (ofJson j).part word = .undefined ∨
      ∃ inner, (ofJson j).part word = ofJson inner := by
  cases j with
  | object members =>
      rw [part, attribute?_ofJson_object]
      cases Keyed.get? word members with
      | some inner => exact Or.inr ⟨inner, rfl⟩
      | none => exact Or.inl rfl
  | _ => exact Or.inl rfl

/- Nothing that a loop over a part goes through is undefined. -/
theorem ne_undefined_of_mem_part
    {j : Json}
    {word : String}
    {items : List Value}
    {item : Value}
    (hItems : ((ofJson j).part word).elements = .ok items)
    (hItem : item ∈ items) :
    item ≠ .undefined := by
  rcases part_ofJson j word with hPart | ⟨inner, hPart⟩
  · rw [hPart] at hItems
    obtain rfl : [] = items := by simpa [elements] using hItems
    simp at hItem
  · rw [hPart] at hItems
    exact ne_undefined_of_mem_elements hItems hItem

------------------------------------------------------------
-- Slices
------------------------------------------------------------

theorem everyFrom_one {α : Type} (items : List α) :
    everyFrom 1 0 items = items := by
  induction items with
  | nil => rfl
  | cons item rest ih => rw [everyFrom, ih]

theorem sliceItems_dropLast {α : Type} (items : List α) :
    sliceItems items Option.none (some (-1)) 1 = items.dropLast := by
  cases items with
  | nil => rfl
  | cons item rest =>
      have hFirst : boundAt (item :: rest).length 0 = 0 := by
        simp [boundAt]
      have hLast : boundAt (item :: rest).length (-1) = rest.length := by
        rw [boundAt, if_pos (by decide), List.length_cons]
        omega
      have hForward : sliceItems (item :: rest) Option.none
          (some (-1)) 1 =
          everyFrom 1 0 (((item :: rest).take
            (boundAt (item :: rest).length (-1))).drop
              (boundAt (item :: rest).length 0)) := rfl
      rw [hForward, hFirst, hLast, everyFrom_one, List.drop_zero,
        List.dropLast_eq_take]
      rfl

/- All elements of a list but the last one. -/
theorem slice_dropLast (items : List Value) :
    Value.slice (.list items) .none (.int (-1)) .none =
      .ok (.list items.dropLast) := by
  rw [← sliceItems_dropLast]
  rfl

end Bindery.Template.Value

import Bindery.Proofs.Json.ValueAcceptance
import Bindery.Schema.Reader

/-
  This file says which documents are schemas: the readers of
  names, of declarations and of whole schemas accept the values
  that a schema can be made of, and nothing else.

  Key definitions include:
    * `listOf?`
    * `declOf?`
    * `nextField`

  Key theorems include:
    * `accepts_readDecls`
    * `accepts_readSchema`
    * `parse_eq_ok_iff_spelled`
-/

namespace Bindery

open Json

variable {α : Type} {s t : List Char}

------------------------------------------------------------
-- Parts of a Schema
------------------------------------------------------------

/- The text that a value is. -/
def textOf? : Json → Option String
| .text value => some value
| _ => none

/- The list that a value is, if something is made of each element. -/
def listOf? (decode : Json → Option α) : Json → Option (List α)
| .array items => items.mapM decode
| _ => none

/- The declaration that a pair of a name and a body is. -/
def declOf? : Json → Option Decl
| .array [name, body] =>
    (listOf? textOf? name).map (fun name => ⟨name, Json.settle body⟩)
| _ => none

theorem textOf?_eq_some_iff {j : Json} {value : String} :
    textOf? j = some value ↔ j = .text value := by
  unfold textOf?
  split
  · simp
  · rename_i hNot
    simp only [reduceCtorEq, false_iff]
    exact hNot value

theorem listOf?_eq_some_iff
    {decode : Json → Option α}
    {j : Json}
    {values : List α} :
    listOf? decode j = some values ↔
      ∃ items, j = .array items ∧ items.mapM decode = some values := by
  unfold listOf?
  split
  · simp
  · rename_i hNot
    simp only [reduceCtorEq, false_iff]
    rintro ⟨items, rfl, -⟩
    exact hNot items rfl

theorem declOf?_eq_some_iff {j : Json} {decl : Decl} :
    declOf? j = some decl ↔ ∃ name body, j = .array [name, body] ∧
      listOf? textOf? name = some decl.name ∧
        Json.settle body = decl.body := by
  unfold declOf?
  split
  · rcases decl with ⟨segments, value⟩
    simp
  · rename_i hNot
    simp only [reduceCtorEq, false_iff]
    rintro ⟨name, body, rfl, -⟩
    exact hNot name body rfl

------------------------------------------------------------
-- Lists
------------------------------------------------------------

section Lists

variable {a : α} {c : Cursor} {expected : String}

/- A list is asked for: what follows is its opening bracket. -/
theorem leaves_readListOf_iff
    {contents : Reader α}
    {spelling : Spelling α}
    (hContents : Accepts contents spelling) :
    Leaves (readListOf expected contents c) a t ↔
      ∃ u, afterGap c.rest = '[' :: u ∧ spelling a u t := by
  unfold readListOf
  simp only [Cursor.rest_skipBlanks]
  split
  · rename_i hRest
    simp [hRest]
  · rename_i u hRest
    rw [hContents, Cursor.rest_next, Cursor.rest_skipBlanks]
    simp [hRest]
  · rename_i hNot
    simp only [not_leaves_failUnexpected, false_iff]
    rintro ⟨u, hBracket, -⟩
    exact hNot u hBracket

theorem accepts_readSegment (depth : Nat) :
    Accepts readSegment (Spaced (Decoded textOf? (Value depth))) := by
  intro c value t
  have hRight : Spaced (Decoded textOf? (Value depth)) value c.rest t ↔
      ∃ u, afterGap c.rest = '"' :: u ∧
        ∃ chars, Quoted chars u t ∧ String.ofList chars = value := by
    constructor
    · rintro ⟨j, hValue, hText⟩
      rw [textOf?_eq_some_iff.mp hText] at hValue
      exact value_text_iff.mp hValue
    · intro h
      exact ⟨_, value_text_iff.mpr h, rfl⟩
  rw [hRight]
  unfold readSegment
  simp only [Cursor.rest_skipBlanks]
  split
  · rename_i hRest
    simp [hRest]
  · rename_i u hRest
    rw [accepts_readString, Cursor.rest_next, Cursor.rest_skipBlanks]
    simp [hRest]
  · rename_i hNot
    simp only [not_leaves_failUnexpected, false_iff]
    rintro ⟨u, hQuote, -⟩
    exact hNot u hQuote

/- A list of what is read of values is read of an array of values. -/
theorem accepts_readListOf
    {element : Reader α}
    {decode : Json → Option α}
    {depth : Nat}
    (expected : String)
    (hElement : Accepts element
      (Spaced (Decoded decode (Value depth)))) :
    Accepts (readListOf expected (readSequence element))
      (Spaced (Decoded (listOf? decode) (Value (depth + 1)))) := by
  intro c values t
  rw [leaves_readListOf_iff
    (accepts_readSequence hElement (separable_value depth).decoded)]
  constructor
  · rintro ⟨u, hBracket, hElements⟩
    rcases elements_decoded_iff.mp hElements with
      ⟨items, hItems, hDecode⟩
    exact ⟨.array items, value_array_iff.mpr ⟨u, hBracket, hItems⟩,
      hDecode⟩
  · rintro ⟨j, hValue, hDecode⟩
    rcases listOf?_eq_some_iff.mp hDecode with ⟨items, rfl, hDecodes⟩
    rcases value_array_iff.mp hValue with ⟨u, hBracket, hItems⟩
    exact ⟨u, hBracket, elements_decoded_iff.mpr
      ⟨items, hItems, hDecodes⟩⟩

theorem accepts_readName (depth : Nat) :
    Accepts readName
      (Spaced (Decoded (listOf? textOf?) (Value (depth + 1)))) :=
  accepts_readListOf "a sequence" (accepts_readSegment depth)

end Lists

------------------------------------------------------------
-- Declarations
------------------------------------------------------------

theorem accepts_closeList :
    Accepts closeList fun _ s t => afterGap s = ']' :: t := by
  intro c _ t
  unfold closeList
  cases hGap : afterGap c.rest with
  | nil => simp [hGap]
  | cons x rest =>
      by_cases hEnd : x = ']'
      · simp [hGap, hEnd]
      · by_cases hComma : x = ','
        · have hApart : (',' : Char) ≠ ']' := by decide
          simp only [Cursor.rest_skipBlanks, hGap, hComma, hApart,
            if_true, if_false]
          split
          · simp [hApart]
          · simp [hApart]
        · simp [hGap, hEnd, hComma]

/- An element of a pair is read where a list has its next element. -/
theorem accepts_readPairElement
    {element : Reader α}
    {spelling : Spelling α}
    (index : Nat)
    (hElement : Accepts element (Spaced spelling)) :
    Accepts (readPairElement index element) fun a s t =>
      ∃ u, NextElement (index == 0) true s u ∧
        spelling a (afterGap u) t := by
  intro c a t
  unfold readPairElement
  rw [leaves_bind_iff_of_accepts (accepts_nextElement (index == 0))
    (p := fun more u => more = true ∧ spelling a (afterGap u) t)
    fun more c _ => by
      cases more with
      | false => simp
      | true => simpa [Spaced] using hElement c a t]
  simp

/- A pair of a name and a body is read between its brackets. -/
theorem accepts_pair :
    Accepts
      (fun c => do
        let (name, c) ← readPairElement 0 readName c
        let (body, c) ← readPairElement 1 (readValue bodyDepth) c
        let (_, c) ← closeList c
        .ok ((⟨name, body⟩ : Decl), c))
      fun decl s t => ∃ name body,
        Elements ']' (Value bodyDepth) [name, body] s t ∧
          listOf? textOf? name = some decl.name ∧
            Json.settle body = decl.body := by
  have hSeparable := separable_value bodyDepth
  have hName := accepts_readPairElement 0
    (accepts_readName (maxDepth - 4))
  have hBody := accepts_readPairElement 1 (accepts_readValue bodyDepth)
  intro c decl t
  refine (leaves_bind_iff_of_accepts hName
    (p := fun name u => ∃ body v, (∃ w, NextElement false true u w ∧
        Settled bodyDepth body (afterGap w) v) ∧
      ∃ r, afterGap v = ']' :: r ∧ ⟨name, body⟩ = decl ∧ r = t)
    fun name c _ => leaves_bind_iff_of_accepts hBody
      fun body c _ => leaves_bind_iff_of_skips accepts_closeList
        fun c _ => leaves_ok_iff).trans ?_
  constructor
  · rintro ⟨name, u, hFirst, body, v, hSecond, r, hClose, rfl, rfl⟩
    rcases (first_element_iff hSeparable.decoded).mp hFirst with
      ⟨rawName, hRawName, hDecode⟩
    rcases (next_element_iff hSeparable.decoded).mp hSecond with
      ⟨w, hComma, hRawBody⟩
    rcases settled_iff.mp hRawBody with ⟨rawBody, hRawBody, hSettle⟩
    exact ⟨rawName, rawBody, Elements.cons hRawName
      (MoreElements.comma hComma hRawBody (MoreElements.close hClose)),
      hDecode, hSettle⟩
  · rintro ⟨rawName, rawBody, hPair, hDecode, hSettle⟩
    rcases elements_cons_iff.mp hPair with ⟨u, hRawName, hMore⟩
    rcases moreElements_cons_iff.mp hMore with
      ⟨w, hComma, v, hRawBody, hLast⟩
    have hClose := moreElements_nil_iff.mp hLast
    exact ⟨decl.name, u,
      (first_element_iff hSeparable.decoded).mpr
        ⟨rawName, hRawName, hDecode⟩,
      decl.body, v,
      (next_element_iff hSeparable.decoded).mpr
        ⟨w, hComma, settled_iff.mpr ⟨rawBody, hRawBody, hSettle⟩⟩,
      t, hClose, rfl, rfl⟩

theorem accepts_readDecl :
    Accepts readDecl (Spaced (Decoded declOf? (Value (bodyDepth + 1)))) := by
  intro c decl t
  refine (leaves_readListOf_iff accepts_pair).trans ?_
  constructor
  · rintro ⟨u, hBracket, name, body, hPair, hName, hBody⟩
    exact ⟨_, value_array_iff.mpr ⟨u, hBracket, hPair⟩,
      declOf?_eq_some_iff.mpr ⟨name, body, rfl, hName, hBody⟩⟩
  · rintro ⟨j, hValue, hDecl⟩
    rcases declOf?_eq_some_iff.mp hDecl with
      ⟨name, body, rfl, hName, hBody⟩
    rcases value_array_iff.mp hValue with ⟨u, hBracket, hPair⟩
    exact ⟨u, hBracket, name, body, hPair, hName, hBody⟩

theorem accepts_readDecls :
    Accepts readDecls
      (Spaced (Decoded (listOf? declOf?) (Value fieldDepth))) :=
  accepts_readListOf "a sequence" accepts_readDecl

------------------------------------------------------------
-- Schemas
------------------------------------------------------------

/- What is known of a schema after one more member. -/
def nextField
    (fields : PartialSchema)
    (key : String)
    (raw : Json) : Option PartialSchema :=
  if key = "decls" then
    match fields.decls with
    | some _ => none
    | none =>
        (listOf? declOf? raw).map
          (fun decls => { fields with decls := some decls })
  else
    some { fields with
      extra := Keyed.put key (Json.settle raw) fields.extra }

theorem accepts_readField (fields : PartialSchema) (key : String) :
    Accepts (readField fields key)
      (Step (Value fieldDepth) nextField fields key) := by
  intro c after t
  unfold readField Step nextField
  by_cases hKey : key = "decls"
  · simp only [hKey, if_true]
    cases fields.decls with
    | some decls => simp [Decoded]
    | none =>
        exact leaves_colon_iff
          (fun decls => { fields with decls := some decls })
          accepts_readDecls
  · simp only [hKey, if_false]
    exact leaves_colon_iff
      (fun value =>
        { fields with extra := Keyed.put key value fields.extra })
      (accepts_readValue fieldDepth)

/- The members of an object are taken in as those of a schema. -/
def IsSchema
    (members : List (String × Json))
    (schema : Schema) : Prop :=
  Takes nextField members ⟨none, []⟩ ⟨some schema.decls, schema.extra⟩

theorem rest_afterObject {c : Cursor} (hRest : c.rest = '}' :: t) :
    (afterObject c).rest = t := by
  have hSkip : c.skipBlanks.rest = '}' :: t := by
    rw [Cursor.rest_skipBlanks, hRest]
    exact afterGap_cons_of_not_isGap (by decide)
  unfold afterObject
  simp only [hSkip, Cursor.rest_next, List.tail_cons]

/- What is left to check of a schema after its last member. -/
theorem leaves_fields_iff
    {fields : PartialSchema}
    {schema : Schema}
    {c : Cursor}
    (hRest : c.rest = '}' :: s) :
    Leaves
        (match fields.decls with
          | some decls => .ok (⟨decls, fields.extra⟩, afterObject c)
          | none => (afterObject c).failHere (.missingField "decls"))
        schema t ↔
      fields = ⟨some schema.decls, schema.extra⟩ ∧ s = t := by
  rcases fields with ⟨_ | decls, extra⟩
  · simp
  · rcases schema with ⟨decls', extra'⟩
    simp [rest_afterObject hRest]

theorem accepts_readSchema :
    Accepts readSchema fun schema s t => ∃ members,
      Value maxDepth (.object members) (afterGap s) t ∧
        IsSchema members schema := by
  intro c schema t
  have hMembers := accepts_foldMembers accepts_readField
    Value.length_lt ⟨none, []⟩
  unfold readSchema
  simp only [Cursor.rest_skipBlanks]
  split
  · rename_i hRest
    simp only [not_leaves_failAhead, false_iff]
    rintro ⟨members, hValue, -⟩
    rcases value_object_iff.mp hValue with ⟨u, hBrace, -⟩
    exact absurd (hRest.symm.trans hBrace) (by simp)
  · rename_i u hRest
    rw [leaves_bind_iff_of_accepts hMembers
      (p := fun fields u =>
        fields = ⟨some schema.decls, schema.extra⟩ ∧ u.tail = t)
      (by
        intro fields c hStep
        rcases hStep with ⟨-, v, -, -, hClose⟩
        rw [← hClose]
        exact leaves_fields_iff hClose.symm),
      Cursor.rest_next, Cursor.rest_skipBlanks, hRest, List.tail_cons]
    constructor
    · rintro ⟨_, _, ⟨members, v, hSpelled, hTakes, rfl⟩, rfl, rfl⟩
      exact ⟨members, Nested.object hSpelled, hTakes⟩
    · rintro ⟨members, hValue, hTakes⟩
      rcases value_object_iff.mp hValue with ⟨v, hBrace, hSpelled⟩
      obtain rfl : u = v := (List.cons.inj hBrace).2
      exact ⟨_, _, ⟨members, t, hSpelled, hTakes, rfl⟩, rfl, rfl⟩
  · rename_i hNot
    simp only [not_leaves_failUnexpected, false_iff]
    rintro ⟨members, hValue, -⟩
    rcases value_object_iff.mp hValue with ⟨u, hBrace, -⟩
    exact hNot u hBrace

theorem parse_eq_ok_iff_leaves {text : String} {schema : Schema} :
    Schema.parse text = .ok schema ↔
      ∃ u, Leaves (readSchema (Cursor.start text)) schema u ∧
        afterGap u = [] := by
  unfold Schema.parse
  cases readSchema (Cursor.start text) with
  | error e => simp [bind, Except.bind]
  | ok pair =>
      rcases pair with ⟨read, c⟩
      simp only [bind, Except.bind, Cursor.rest_skipBlanks,
        List.isEmpty_iff, leaves_ok_iff]
      by_cases hEnd : afterGap c.rest = []
      · simp [hEnd]
      · simp [hEnd, failAhead_ne_ok]

/- The object that a text spells, if it spells one, is read. -/
theorem parse_eq_ok_iff_spelled {text : String} {schema : Schema} :
    Schema.parse text = .ok schema ↔ ∃ members,
      IsDocument maxDepth text (.object members) ∧
        IsSchema members schema := by
  rw [parse_eq_ok_iff_leaves]
  constructor
  · rintro ⟨u, hRead, hEnd⟩
    rcases (accepts_readSchema _ _ _).mp hRead with
      ⟨members, hValue, hSchema⟩
    exact ⟨members, ⟨u, hValue, hEnd⟩, hSchema⟩
  · rintro ⟨members, ⟨u, hValue, hEnd⟩, hSchema⟩
    exact ⟨u, (accepts_readSchema _ _ _).mpr
      ⟨members, hValue, hSchema⟩, hEnd⟩

end Bindery

import Bindery.Proofs.Json.Staying
import Bindery.Schema.Location

/-
  This file says which byte of a text a failure to read a schema
  points at.  A failure is at a line and a number of bytes in it,
  but that number is looked up as one of characters.  So it points
  at the byte at which reading stopped only if all characters
  before that in its line are single bytes.

  Key definitions include:
    * `bytesOfLines`
    * `bytesToColumn`

  Key theorems include:
    * `stays_readSchema`
    * `isPlace_of_parse_error`
    * `offsetOf_eq`
    * `bytesToColumn_eq_iff`
    * `Schema.parseNamed_offset`
-/

namespace Bindery

open Json
open Text (byteLength)

------------------------------------------------------------
-- Readers
------------------------------------------------------------

section Readers

variable {α : Type} {text : List Char} {c : Cursor}

theorem stays_readSegment : Stays readSegment := by
  intro text c h
  unfold readSegment
  dsimp only
  split
  · exact staysIn_failAhead h.skipBlanks
  · exact stays_readString text _ h.skipBlanks.next
  · exact stays_failUnexpected _ text _ h.skipBlanks

theorem stays_readListOf
    {contents : Reader α}
    (hContents : Stays contents)
    (expected : String) :
    Stays (readListOf expected contents) := by
  intro text c h
  unfold readListOf
  dsimp only
  split
  · exact staysIn_failAhead h.skipBlanks
  · exact hContents text _ h.skipBlanks.next
  · exact stays_failUnexpected _ text _ h.skipBlanks

theorem stays_readName : Stays readName :=
  stays_readListOf (stays_readSequence stays_readSegment) _

theorem stays_readPairElement
    {element : Reader α}
    (hElement : Stays element)
    (index : Nat) :
    Stays (readPairElement index element) := by
  intro text c h
  refine (stays_nextElement _ text c h).bind fun more c hNext => ?_
  dsimp only
  split_ifs
  · exact hElement text c hNext
  · exact staysIn_failHere hNext.next

theorem stays_readDecl : Stays readDecl := by
  refine stays_readListOf (fun text c h => ?_) _
  refine (stays_readPairElement stays_readName 0 text c h).bind
    fun name c hName => ?_
  refine (stays_readPairElement (stays_readValue bodyDepth) 1 text c
    hName).bind fun body c hBody => ?_
  exact (stays_closeList text c hBody).bind fun _ _ hEnd => hEnd

theorem stays_readDecls : Stays readDecls :=
  stays_readListOf (stays_readSequence stays_readDecl) _

theorem isIn_afterObject (h : c.IsIn text) : (afterObject c).IsIn text := by
  unfold afterObject
  dsimp only
  split
  · exact h.skipBlanks.next
  · exact h.skipBlanks

theorem stays_readField (s : PartialSchema) (key : String) :
    Stays (readField s key) := by
  intro text c h
  unfold readField
  split_ifs
  · split
    · exact staysIn_failHere (isIn_afterObject h)
    · refine (stays_readColon text c h).bind fun _ c hColon => ?_
      exact (stays_readDecls text c hColon).bind fun _ _ hEnd => hEnd
  · refine (stays_readColon text c h).bind fun _ c hColon => ?_
    exact (stays_readValue fieldDepth text c hColon).bind
      fun _ _ hEnd => hEnd

theorem stays_readSchema : Stays readSchema := by
  intro text c h
  unfold readSchema
  dsimp only
  split
  · exact staysIn_failAhead h.skipBlanks
  · refine (stays_foldMembers stays_readField _ text _
      h.skipBlanks.next).bind fun fields c hFields => ?_
    dsimp only
    split
    · exact isIn_afterObject hFields
    · exact staysIn_failHere (isIn_afterObject hFields)
  · exact stays_failUnexpected _ text _ h.skipBlanks

/- A text that is no schema fails at one of its places. -/
theorem isPlace_of_parse_error
    {text : String}
    {e : ReadError}
    (h : Schema.parse text = .error e) :
    IsPlace text.toList e.line e.column := by
  have hRead := stays_readSchema text.toList _ (Cursor.isIn_start text)
  unfold Schema.parse at h
  cases hResult : readSchema (Cursor.start text) with
  | error cause =>
      rw [hResult] at h hRead
      obtain rfl := Except.error.inj h
      exact hRead
  | ok pair =>
      rcases pair with ⟨schema, c⟩
      rw [hResult] at h hRead
      change (if c.skipBlanks.rest.isEmpty then .ok schema
        else c.skipBlanks.failAhead .trailingCharacters) = _ at h
      split_ifs at h
      exact hRead.skipBlanks.isPlace_of_failAhead h

end Readers

------------------------------------------------------------
-- Bytes
------------------------------------------------------------

/- Number of bytes of lines with a break after each of them. -/
def bytesOfLines (lines : List (List Char)) : Nat :=
  byteLength (lines.flatMap fun line => line ++ ['\n'])

theorem bytesOfLines_cons
    (line : List Char)
    (lines : List (List Char)) :
    bytesOfLines (line :: lines) =
      byteLength line + 1 + bytesOfLines lines := by
  rw [bytesOfLines, List.flatMap_cons, Text.byteLength_append,
    Text.byteLength_append]
  rfl

/-
  Number of bytes before the first place of some lines that has
  so many characters before it in its own line; if there is no
  such place, the number of all bytes.
-/
def bytesToColumn (count : Nat) : List (List Char) → Nat
| [] => 0
| [line] => byteLength (line.take count)
| line :: next :: later =>
    if count ≤ line.length then byteLength (line.take count)
    else byteLength line + 1 + bytesToColumn count (next :: later)

section Bytes

variable {text line rest : List Char} {passed lines : List (List Char)}
variable {wantedLine wantedColumn number offset : Nat}

/- The walk stops where the wanted column is next. -/
theorem offsetFrom_of_reached
    {column : Nat}
    (hLine : wantedLine ≤ number + 1)
    (hColumn : wantedColumn ≤ column + 1)
    (rest : List Char) :
    offsetFrom wantedLine wantedColumn number column offset rest =
      offset := by
  cases rest with
  | nil => rfl
  | cons x rest => simp [offsetFrom, hLine, hColumn]

/-
  The walk stops within a line, or it passes all of it.  The
  column that it has reached counts characters, so it stays
  general in the induction.
-/
theorem offsetFrom_append
    (hLine : '\n' ∉ line)
    (column offset : Nat)
    (rest : List Char) :
    offsetFrom wantedLine wantedColumn number column offset
        (line ++ rest) =
      if wantedLine ≤ number + 1 ∧
          wantedColumn ≤ column + line.length + 1 then
        offset + byteLength (line.take (wantedColumn - 1 - column))
      else
        offsetFrom wantedLine wantedColumn number
          (column + line.length) (offset + byteLength line) rest := by
  induction line generalizing column offset with
  | nil =>
      split_ifs with hStop
      · simpa using offsetFrom_of_reached hStop.1 hStop.2 rest
      · rfl
  | cons x others ih =>
      rcases List.ne_and_not_mem_of_not_mem_cons hLine with ⟨hx, hOthers⟩
      have hStep : column + 1 + others.length =
          column + (x :: others).length := by
        rw [List.length_cons]
        omega
      by_cases hHere : wantedLine ≤ number + 1 ∧ wantedColumn ≤ column + 1
      · have hZero : wantedColumn - 1 - column = 0 := by omega
        rw [offsetFrom_of_reached hHere.1 hHere.2, if_pos (by omega), hZero]
        simp
      · rw [List.cons_append, offsetFrom, if_neg (by simpa using hHere),
          if_neg hx.symm, ih hOthers, hStep]
        split_ifs with hStop
        · have hTake : wantedColumn - 1 - column =
              (wantedColumn - 1 - (column + 1)) + 1 := by
            omega
          rw [hTake, List.take_succ_cons, Text.byteLength_cons,
            Nat.add_assoc]
        · rw [Text.byteLength_cons, Nat.add_assoc]

/- A line in which the walk does not stop is followed by the next. -/
theorem offsetFrom_line
    (hLine : '\n' ∉ line)
    (rest : List Char) :
    offsetFrom wantedLine wantedColumn number 0 offset
        (line ++ '\n' :: rest) =
      if wantedLine ≤ number + 1 ∧ wantedColumn - 1 ≤ line.length then
        offset + byteLength (line.take (wantedColumn - 1))
      else
        offsetFrom wantedLine wantedColumn (number + 1) 0
          (offset + (byteLength line + 1)) rest := by
  have hColumn : wantedColumn ≤ 0 + line.length + 1 ↔
      wantedColumn - 1 ≤ line.length := by
    omega
  rw [offsetFrom_append hLine]
  simp only [hColumn, Nat.sub_zero]
  split_ifs with hStop
  · rfl
  · have hBreak : ¬ (wantedLine ≤ number + 1 ∧
        wantedColumn ≤ 0 + line.length + 1) := by
      rwa [hColumn]
    rw [offsetFrom, if_neg (by simpa using hBreak), if_pos rfl]
    rfl

/- Lines before the wanted one are passed. -/
theorem offsetFrom_passed
    (hLines : linesOf text = passed ++ lines)
    (hNe : lines ≠ [])
    (hNumber : number + passed.length + 1 ≤ wantedLine) :
    ∃ rest, linesOf rest = lines ∧
      offsetFrom wantedLine wantedColumn number 0 offset text =
        offsetFrom wantedLine wantedColumn (number + passed.length) 0
          (offset + bytesOfLines passed) rest := by
  induction passed generalizing text number offset with
  | nil => exact ⟨text, hLines, rfl⟩
  | cons first others ih =>
      rw [List.length_cons] at hNumber
      rcases eq_of_linesOf_eq_cons hLines with
        ⟨hFirst, ⟨hNil, -⟩ | ⟨rest, rfl, hRest⟩⟩
      · exact absurd (List.append_eq_nil_iff.mp hNil).2 hNe
      · rcases @ih rest (number + 1) (offset + (byteLength first + 1)) hRest
          (by omega) with ⟨last, hLast, hWalk⟩
        refine ⟨last, hLast, ?_⟩
        rw [offsetFrom_line hFirst, if_neg (by omega), hWalk,
          List.length_cons, bytesOfLines_cons, Nat.add_assoc number,
          Nat.add_comm 1, Nat.add_assoc offset]

/- From the wanted line on, the wanted column is looked for. -/
theorem offsetFrom_reached
    (hNumber : wantedLine ≤ number + 1)
    (hLines : linesOf text = lines) :
    offsetFrom wantedLine wantedColumn number 0 offset text =
      offset + bytesToColumn (wantedColumn - 1) lines := by
  induction lines generalizing text number offset with
  | nil => exact absurd hLines (Text.splitAt_ne_nil _ _)
  | cons first others ih =>
      rcases eq_of_linesOf_eq_cons hLines with
        ⟨hFirst, ⟨rfl, rfl⟩ | ⟨rest, rfl, hRest⟩⟩
      · have hWalk := @offsetFrom_append text wantedLine wantedColumn
          number hFirst 0 offset []
        rw [List.append_nil] at hWalk
        rw [hWalk, bytesToColumn]
        split_ifs with hStop
        · rfl
        · rw [List.take_of_length_le (by omega)]
          rfl
      · rcases exists_linesOf rest with ⟨next, later, hNext⟩
        obtain rfl := hRest.symm.trans hNext
        rw [offsetFrom_line hFirst, ih (by omega) hRest, bytesToColumn]
        simp only [hNumber, true_and]
        split_ifs
        · rfl
        · rw [Nat.add_assoc]

/- The offset of a place, in terms of the lines of the text. -/
theorem offsetOf_eq
    {text : String}
    (hLines : linesOf text.toList = passed ++ line :: lines) :
    offsetOf text (passed.length + 1) wantedColumn =
      bytesOfLines passed +
        bytesToColumn (wantedColumn - 1) (line :: lines) := by
  rcases @offsetFrom_passed text.toList passed (line :: lines)
    (passed.length + 1) wantedColumn 0 0 hLines (List.cons_ne_nil _ _)
    (by omega) with ⟨rest, hRest, hWalk⟩
  rw [offsetOf, hWalk, offsetFrom_reached (by omega) hRest, Nat.zero_add]

end Bytes

------------------------------------------------------------
-- Single bytes
------------------------------------------------------------

section SingleBytes

variable {line : List Char} {count : Nat}

theorem length_le_byteLength (line : List Char) :
    line.length ≤ byteLength line := by
  induction line with
  | nil => exact Nat.le_refl _
  | cons x rest ih =>
      have hSize := x.utf8Size_pos
      rw [List.length_cons, Text.byteLength_cons]
      omega

theorem byteLength_eq_length_iff :
    byteLength line = line.length ↔ ∀ x ∈ line, x.utf8Size = 1 := by
  refine ⟨fun h => ?_, Text.byteLength_eq_length⟩
  induction line with
  | nil => exact List.forall_mem_nil _
  | cons x rest ih =>
      have hSize := x.utf8Size_pos
      have hRest := length_le_byteLength rest
      rw [List.length_cons, Text.byteLength_cons] at h
      exact List.forall_mem_cons.mpr ⟨by omega, ih (by omega)⟩

/- Beyond the characters of a line all its bytes are passed. -/
theorem byteLength_le_bytesToColumn
    (hCount : line.length < count)
    (later : List (List Char)) :
    byteLength line ≤ bytesToColumn count (line :: later) := by
  cases later with
  | nil => rw [bytesToColumn, List.take_of_length_le (by omega)]
  | cons next later =>
      rw [bytesToColumn, if_neg (by omega)]
      omega

theorem bytesToColumn_of_le
    (hCount : count ≤ line.length)
    (later : List (List Char)) :
    bytesToColumn count (line :: later) =
      byteLength (line.take count) := by
  cases later with
  | nil => rfl
  | cons next later => rw [bytesToColumn, if_pos hCount]

/-
  A number of bytes within a line is passed by so many characters
  only if each of them is a single byte.
-/
theorem bytesToColumn_eq_iff
    (hCount : count = 0 ∨ count < byteLength line)
    (later : List (List Char)) :
    bytesToColumn count (line :: later) = count ↔
      ∀ x ∈ line.take count, x.utf8Size = 1 := by
  by_cases hLength : count ≤ line.length
  · have hTake : (line.take count).length = count := by
      rw [List.length_take, Nat.min_eq_left hLength]
    rw [bytesToColumn_of_le hLength, ← byteLength_eq_length_iff, hTake]
  · -- the line is used up, and its bytes are more
    have hPassed := byteLength_le_bytesToColumn
      (show line.length < count by omega) later
    rw [List.take_of_length_le (by omega), ← byteLength_eq_length_iff]
    omega

end SingleBytes

------------------------------------------------------------
-- Errors
------------------------------------------------------------

/-
  A failure is at some line of the text, within the bytes of that
  line.  The byte it points at is found by counting characters, so
  it is the last byte that was read only if all characters before
  that in the line are single bytes.
-/
theorem Schema.parseNamed_offset
    {sourceName text : String}
    {e : SchemaError}
    (h : Schema.parseNamed sourceName text = .error e) :
    ∃ passed here later,
      linesOf text.toList = passed ++ here :: later ∧
      e.cause.line = passed.length + 1 ∧
      e.cause.column ≤ byteLength here ∧
      e.offset = some (bytesOfLines passed +
        bytesToColumn (e.cause.column - 1) (here :: later)) ∧
      (e.offset = some (bytesOfLines passed +
          (max e.cause.column 1 - 1)) ↔
        ∀ x ∈ here.take (e.cause.column - 1), x.utf8Size = 1) := by
  unfold Schema.parseNamed at h
  cases hParse : Schema.parse text with
  | ok schema => simp [hParse] at h
  | error cause =>
      simp only [hParse] at h
      obtain rfl := Except.error.inj h
      rcases isPlace_of_parse_error hParse with
        ⟨passed, here, later, hLines, hLine, hColumn⟩
      have hOffset : offsetOf? text cause.line cause.column =
          some (bytesOfLines passed +
            bytesToColumn (cause.column - 1) (here :: later)) := by
        rw [offsetOf?, hLine, if_neg (Nat.succ_ne_zero _),
          offsetOf_eq hLines]
      have hMax : max cause.column 1 - 1 = cause.column - 1 := by omega
      have hCount : cause.column - 1 = 0 ∨
          cause.column - 1 < byteLength here := by
        omega
      refine ⟨passed, here, later, hLines, hLine, hColumn, hOffset, ?_⟩
      rw [← bytesToColumn_eq_iff hCount later, hOffset, hMax,
        Option.some_inj, Nat.add_left_cancel_iff]

/- A wide character moves the place that is pointed at. -/
theorem Schema.parseNamed_offset_wide :
    ∃ e : SchemaError,
      Schema.parseNamed "schema.json" "\x7b\n  \"ß\\q\": 1\n\x7d" =
        .error e ∧
      e.cause = ⟨.invalidEscape, 2, 7⟩ ∧
      e.offset = some 9 ∧
      e.offset ≠
        some (bytesOfLines [['{']] + (max e.cause.column 1 - 1)) := by
  have hFail : Schema.parseNamed "schema.json"
      "\x7b\n  \"ß\\q\": 1\n\x7d" =
        .error ⟨"schema.json", some 9, ⟨.invalidEscape, 2, 7⟩⟩ := by
    rfl
  refine ⟨_, hFail, rfl, rfl, ?_⟩
  rcases Schema.parseNamed_offset hFail with
    ⟨passed, here, later, hLines, hLine, -, -, hPointed⟩
  have hText : linesOf "\x7b\n  \"ß\\q\": 1\n\x7d".toList =
      [['{'], "  \"ß\\q\": 1".toList, ['}']] := by
    decide +kernel
  rcases List.length_eq_one_iff.mp (Nat.succ.inj hLine).symm with
    ⟨first, rfl⟩
  obtain ⟨rfl, rfl, rfl⟩ :
      first = ['{'] ∧ here = "  \"ß\\q\": 1".toList ∧
        later = [['}']] := by
    simpa using hLines.symm.trans hText
  intro hSame
  exact absurd (hPointed.mp hSame 'ß' (by decide +kernel)) (by decide)

end Bindery

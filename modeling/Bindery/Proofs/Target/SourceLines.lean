import Bindery.Proofs.Target.Shape
import Bindery.Target.Builtin.Basic

/-
  This file is about source files as lists of lines.  The file
  for some shapes has the lines of its start and then, for each
  qualified name, the lines of its comment and of its type; each
  line is ended by one line break, also the last one.

  Key definitions include:
    * `brokenLines`
    * `EndsInOneBreak`
    * `EndsInLine`

  Key theorems include:
    * `ofLines_cons`
    * `ofLines_append_flatMap`
    * `endsInOneBreak_ofLines`
    * `EndsInLine.append_flatMap`
    * `SourceStyle.sourceText_shapedTypes`
-/

namespace Bindery

------------------------------------------------------------
-- Texts of Lines
------------------------------------------------------------

/- Lines that each start after a line break. -/
def brokenLines (lines : List String) : String :=
  String.join (lines.map ("\n" ++ ·))

/- Whether a text ends in a line break that follows none. -/
def EndsInOneBreak (text : String) : Prop :=
  ∃ before, text = before ++ "\n" ∧
    before.toList.getLast? ≠ some '\n'

/- Whether the last one of some lines ends in a letter. -/
def EndsInLine (lines : List String) : Prop :=
  ∃ last c, lines.getLast? = some last ∧
    last.toList.getLast? = some c ∧ c ≠ '\n'

section Lines

variable {lines : List String}

theorem brokenLines_nil : brokenLines [] = "" := rfl

theorem brokenLines_cons (first : String) (rest : List String) :
    brokenLines (first :: rest) = "\n" ++ first ++ brokenLines rest := by
  rw [brokenLines, List.map_cons, String.join_cons]
  rfl

theorem brokenLines_append (lines others : List String) :
    brokenLines (lines ++ others) =
      brokenLines lines ++ brokenLines others := by
  rw [brokenLines, List.map_append, String.join_append]
  rfl

/- Breaks stand between lines, and one at the end. -/
theorem ofLines_cons (first : String) (rest : List String) :
    ofLines (first :: rest) = first ++ brokenLines rest ++ "\n" := by
  induction rest generalizing first with
  | nil => simp [ofLines, brokenLines_nil]
  | cons next others ih =>
      have hStep : ofLines (first :: next :: others) =
          first ++ "\n" ++ ofLines (next :: others) := by
        rw [ofLines, List.map_cons, String.join_cons]
        rfl
      rw [hStep, ih, brokenLines_cons]
      simp only [String.append_assoc]

/-
  A file has the lines of its start and those of all its blocks,
  if the texts of these are made of lines.
-/
theorem ofLines_append_flatMap
    {α : Type}
    {start first : String}
    {rest : List String}
    {text : α → String}
    {block : α → List String}
    (hStart : start = first ++ brokenLines rest)
    (hBlock : ∀ item, text item = brokenLines (block item))
    (items : List α) :
    ofLines (first :: rest ++ items.flatMap block) =
      start ++ String.join (items.map text) ++ "\n" := by
  have hBlocks : String.join (items.map text) =
      brokenLines (items.flatMap block) := by
    induction items with
    | nil => rfl
    | cons item others ih =>
        rw [List.map_cons, String.join_cons, ih, hBlock,
          List.flatMap_cons, brokenLines_append]
  rw [hStart, hBlocks, List.cons_append, ofLines_cons,
    brokenLines_append]
  simp only [String.append_assoc]

theorem endsInLine_singleton
    (front : String)
    {ending : String}
    {c : Char}
    (h : ending.toList.getLast? = some c)
    (hc : c ≠ '\n') :
    EndsInLine [front ++ ending] := by
  refine ⟨front ++ ending, c, rfl, ?_, hc⟩
  rw [String.toList_append, List.getLast?_append, h, Option.some_or]

theorem EndsInLine.append
    (first : List String)
    (h : EndsInLine lines) :
    EndsInLine (first ++ lines) := by
  rcases h with ⟨last, c, hLast, hEnd⟩
  refine ⟨last, c, ?_, hEnd⟩
  rw [List.getLast?_append, hLast, Option.some_or]

/- Blocks of lines after some lines end like all of these. -/
theorem EndsInLine.append_flatMap
    {α : Type}
    {block : α → List String}
    (h : EndsInLine lines)
    (hBlock : ∀ item, EndsInLine (block item))
    (items : List α) :
    EndsInLine (lines ++ items.flatMap block) := by
  rcases List.eq_nil_or_concat items with rfl | ⟨init, last, hItems⟩
  · simpa using h
  · rw [hItems, List.concat_eq_append, List.flatMap_append,
      List.flatMap_singleton, ← List.append_assoc]
    exact (hBlock last).append _

/- Only the break of the last line is at the end. -/
theorem endsInOneBreak_ofLines (h : EndsInLine lines) :
    EndsInOneBreak (ofLines lines) := by
  rcases h with ⟨last, c, hLast, hEnd, hc⟩
  rcases List.getLast?_eq_some_iff.mp hLast with ⟨init, rfl⟩
  refine ⟨ofLines init ++ last, ?_, ?_⟩
  · simp [ofLines, String.append_assoc]
  · rw [String.toList_append, List.getLast?_append, hEnd,
      Option.some_or]
    simpa using hc

end Lines

------------------------------------------------------------
-- Source Files
------------------------------------------------------------

/-
  A source file has the lines of its start and those of all its
  types, if the texts of these are made of lines.
-/
theorem SourceStyle.sourceText_shapedTypes
    {style : SourceStyle}
    {write : Shape → String × String}
    {first : String}
    {rest : List String}
    {block : String × Shape → List String}
    (hPreface : style.preface = first ++ brokenLines rest)
    (hBlock : ∀ entry, style.typeText (shapedType write entry) =
      brokenLines (block entry))
    (entries : List (String × Shape)) :
    style.sourceText (entries.map (shapedType write)) =
      ofLines (first :: rest ++ entries.flatMap block) := by
  rw [sourceText, List.map_map]
  exact (ofLines_append_flatMap hPreface hBlock entries).symm

end Bindery

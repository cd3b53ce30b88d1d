import Bindery.Proofs.Files.Ancestor
import Bindery.Proofs.Files.Ordinary

/-
  This file says that a path below a directory is seen from
  there as it was written: joining an ordinary path to another
  one, and taking away the components of that other one, gives
  the ordinary path back.

  Key theorems include:
    * `spansFrom_append`
    * `exists_spans_join`
    * `relativeTo_join`
-/

namespace Bindery.Path

------------------------------------------------------------
-- Spans of Pieces One After Another
------------------------------------------------------------

theorem spansFrom_append
    (start : Nat)
    (front back : List (List Char)) :
    spansFrom start (front ++ back) =
      spansFrom start front ++
        spansFrom (start + Text.width front) back := by
  induction front generalizing start with
  | nil => simp [spansFrom]
  | cons piece rest ih =>
      have hWidth : start + (piece.length + 1) + Text.width rest =
          start + Text.width (piece :: rest) := by
        simp [Nat.add_assoc]
      have hRest := ih (start + (piece.length + 1))
      rw [hWidth] at hRest
      rcases spansFrom_cons start piece with
        ⟨-, component, -, hCons⟩ | hCons
      · rw [List.cons_append, hCons, hCons, hRest, List.cons_append]
      · rw [List.cons_append, hCons, hCons, hRest]

/- A piece that is neither empty nor a dot has a span of its own. -/
theorem spansFrom_cons_of_kept
    (start : Nat)
    {piece : List Char}
    (h : piece ≠ [] ∧ piece ≠ ['.']) :
    ∃ component, ∀ rest, spansFrom start (piece :: rest) =
      ⟨component, start, start + piece.length⟩ ::
        spansFrom (start + (piece.length + 1)) rest := by
  by_cases hDots : piece = ['.', '.']
  · exact ⟨.parent, fun rest => by
      simp [spansFrom, hDots, Nat.add_assoc]⟩
  · exact ⟨.normal (String.ofList piece), fun rest => by
      simp [spansFrom, h, hDots, Nat.add_assoc]⟩

/- The spans of such pieces reach from the first to the last. -/
theorem exists_spans_of_kept
    (start : Nat)
    {piece : List Char}
    {rest : List (List Char)}
    (hKept : ∀ other ∈ piece :: rest, other ≠ [] ∧ other ≠ ['.']) :
    ∃ first others last,
      spansFrom start (piece :: rest) = first :: others ∧
      (first :: others).getLast? = some last ∧
      first.start = start ∧
      last.stop + 1 = start + Text.width (piece :: rest) := by
  induction rest generalizing start piece with
  | nil =>
      rcases spansFrom_cons_of_kept start (hKept piece (by simp)) with
        ⟨component, hCons⟩
      exact ⟨⟨component, start, start + piece.length⟩, [], _, hCons [],
        rfl, rfl, by simp [Nat.add_assoc]⟩
  | cons next more ih =>
      rw [List.forall_mem_cons] at hKept
      rcases spansFrom_cons_of_kept start hKept.1 with
        ⟨component, hCons⟩
      rcases ih (start + (piece.length + 1)) hKept.2 with
        ⟨first, others, last, hSpans, hLast, -, hStop⟩
      refine ⟨⟨component, start, start + piece.length⟩,
        first :: others, last, by rw [hCons, hSpans], ?_, rfl, ?_⟩
      · rw [List.getLast?_cons_cons, hLast]
      · rw [hStop, Text.width_cons piece, Nat.add_assoc]

------------------------------------------------------------
-- Paths Below a Directory
------------------------------------------------------------

section Joining

variable {base path : String}

/- A joined path has the spans of both parts, one after another. -/
theorem exists_spans_join
    (hBase : base ≠ "")
    (hRelative : isAbsolute path = false) :
    ∃ front, (join base path).toList = front ++ path.toList ∧
      spans (join base path) = spans base ++
        spansFrom front.length (Text.splitAt '/' path.toList) := by
  have hStem : ∃ stem,
      (join base path).toList = stem ++ '/' :: path.toList ∧
      spansFrom 0 (Text.splitAt '/' base.toList) =
        spansFrom 0 (Text.splitAt '/' stem) := by
    rcases toList_join hBase hRelative with
      ⟨stem, hStem, hJoin⟩ | hJoin
    · -- after the slash at the end there is an empty piece
      refine ⟨stem, hJoin, ?_⟩
      rw [hStem, Text.splitAt_append, spansFrom_append]
      simp [Text.splitAt, spansFrom]
    · exact ⟨base.toList, hJoin, rfl⟩
  rcases hStem with ⟨stem, hJoin, hSame⟩
  have hSpans : spansFrom 0 (Text.splitAt '/' (join base path).toList) =
      spansFrom 0 (Text.splitAt '/' base.toList) ++
        spansFrom (stem ++ ['/']).length
          (Text.splitAt '/' path.toList) := by
    rw [hJoin, Text.splitAt_append, spansFrom_append, hSame,
      Text.width_splitAt]
    simp
  refine ⟨stem ++ ['/'], by simp [hJoin], ?_⟩
  unfold spans
  simp only [isAbsolute_join hBase hRelative, hSpans]
  split <;> rfl

/- An ordinary path is seen as it is from what it is joined to. -/
theorem relativeTo_join
    (hBase : base ≠ "")
    (hPath : IsOrdinary path) :
    relativeTo base (join base path) = path := by
  rcases exists_spans_join hBase hPath.isAbsolute with
    ⟨front, hText, hSpans⟩
  cases hPieces : Text.splitAt '/' path.toList with
  | nil => exact absurd hPieces (Text.splitAt_ne_nil _ _)
  | cons piece rest =>
      have hKept : ∀ other ∈ piece :: rest,
          other ≠ [] ∧ other ≠ ['.'] := by
        intro other hOther
        rcases hPath other (hPieces ▸ hOther) with ⟨hNe, hDot, -⟩
        exact ⟨hNe, hDot⟩
      rcases exists_spans_of_kept front.length hKept with
        ⟨first, others, last, hOwn, hLast, hStart, hStop⟩
      rw [← hPieces, Text.width_splitAt] at hStop
      rw [hPieces, hOwn] at hSpans
      have hAll : (spans (join base path)).getLast? = some last := by
        rw [hSpans, List.getLast?_append, hLast]
        rfl
      have hDrop : (spans (join base path)).drop
          (components base).length = first :: others := by
        rw [hSpans, components, List.length_map, List.drop_left]
      have hPrefix : (components base).isPrefixOf
          ((spans (join base path)).map Span.component) = true := by
        rw [List.isPrefixOf_iff_prefix, hSpans, List.map_append]
        exact List.prefix_append _ _
      have hSlice : slice (join base path) first.start last.stop =
          path := by
        have hEnd : last.stop = (front ++ path.toList).length := by
          rw [List.length_append]
          omega
        rw [slice, hText, hEnd, List.take_length, hStart,
          List.drop_left, String.ofList_toList]
      simp only [relativeTo, relativeTo?, hPrefix, hDrop, hAll, if_true,
        Option.getD_some, hSlice]

end Joining

end Bindery.Path
